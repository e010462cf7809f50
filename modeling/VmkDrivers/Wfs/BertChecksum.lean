/-
  VmkDrivers.Wfs.BertChecksum

  The two checksums of the bit error rate test.

  `ixgbe_wfs_get_bert_csum` sums a payload that lies in one piece, and
  `ixgbe_wfs_get_bert_skb_csum` the payload of a received frame, which lies
  in the linear part of the `sk_buff` and in page fragments.  Both exclusive-or
  `ip_compute_csum` of the 128-byte blocks, the last one padded with zeros.

  The second one carries a partly filled block from one fragment to the next.
  If a fragment does not complete that block, its length is cleared before it
  is added to the cursors, and the next fragment overwrites it.  The two agree
  exactly for the ways of splitting in which there is no such next fragment
  (`bertSkbCsum_agrees_iff`).
-/

import VmkDrivers.Lib.BlockStream
import VmkDrivers.Wfs.Bert

namespace VmkDrivers.Wfs

open VmkDrivers.Lib

/-! ## Checksums -/

def cblk : Nat := 128

/-- `memcpy` of `src` to offset `o` of `dst`. -/
def memcpy (dst : List UInt8) (o : Nat) (src : List UInt8) : List UInt8 :=
  dst.take o ++ src ++ dst.drop (o + src.length)

/-- `memset(cblk, 0, CBLK)`. -/
def zeroBlock : List UInt8 := List.replicate cblk 0

section Functions

variable (ipComputeCsum : List UInt8 → UInt16)

def cblkCsum (data : List UInt8) (csum : UInt16) : UInt16 := csum ^^^ ipComputeCsum data

/-- `while (len >= CBLK)` over the bytes `ba`: the checksum and the bytes left. -/
def cblkLoop : (fuel : Nat) → (csum : UInt16) → (ba : List UInt8) → UInt16 × List UInt8
  | 0, csum, ba => (csum, ba)
  | fuel + 1, csum, ba =>
    if cblk ≤ ba.length then
      cblkLoop fuel (cblkCsum ipComputeCsum (ba.take cblk) csum) (ba.drop cblk)
    else (csum, ba)

def ixgbeWfsGetBertCsum (data : List UInt8) : UInt16 :=
  let (csum, ba) := cblkLoop ipComputeCsum data.length 0 data
  if ba ≠ [] then cblkCsum ipComputeCsum (memcpy zeroBlock 0 ba) csum else csum

/-- An `sk_buff` with its page fragments; `linear` is the part at `skb->data`. -/
structure FragSkb where
  linear : Skb
  frags : List (List UInt8)

/-- `skb_headlen`. -/
def FragSkb.headlen (skb : FragSkb) : Nat :=
  skb.linear.skbLen - (skb.frags.map List.length).sum

/-- The local variables of `ixgbe_wfs_get_bert_skb_csum`: the block being filled, the cursor
    `ba` into it and the space `b` left behind the cursor. -/
structure CsumState where
  csum : UInt16
  cblk : List UInt8
  ba : Nat
  b : Nat
deriving DecidableEq

/-- "head fragment": the block on the stack is not initialised. -/
def CsumState.start (stack : List UInt8) : CsumState :=
  { csum := 0, cblk := stack, ba := 0, b := Wfs.cblk }

/-- "try filling up cblk with residue from previous fragment": the variables and the bytes
    of the fragment left. -/
def fillCblk (s : CsumState) (va : List UInt8) : CsumState × List UInt8 :=
  if s.b < cblk then
    if va.length < s.b then
      -- `len = 0; ba += len; b -= len`
      let len := 0
      ({ s with cblk := memcpy s.cblk s.ba va, ba := s.ba + len, b := s.b - len }, [])
    else
      let block := memcpy s.cblk s.ba (va.take s.b)
      ({ csum := cblkCsum ipComputeCsum block s.csum, cblk := block, ba := 0, b := cblk },
        va.drop s.b)
  else (s, va)

def sumPiece (s : CsumState) (va : List UInt8) : CsumState :=
  let (csum, va) := cblkLoop ipComputeCsum va.length s.csum va
  if va ≠ [] then
    { csum, cblk := memcpy zeroBlock s.ba va, ba := s.ba + va.length, b := s.b - va.length }
  else { s with csum }

def sumFrag (s : CsumState) (frag : List UInt8) : CsumState :=
  let (s, va) := fillCblk ipComputeCsum s frag
  sumPiece ipComputeCsum s va

/-- "final csum block". -/
def finalCsum (s : CsumState) : UInt16 :=
  if s.b < cblk then cblkCsum ipComputeCsum s.cblk s.csum else s.csum

/-- `ixgbe_wfs_get_bert_skb_csum`; `stack` is what the uninitialised block holds. -/
def ixgbeWfsGetBertSkbCsum (stack : List UInt8) (skb : FragSkb) : Except Fault UInt16 := do
  match ← wfspktGetopt skb.linear wfsoptBert with
  | none => pure 0xFFFF
  | some o =>
    let head := (List.range (skb.headlen - skb.linear.len.toNat)).map fun i =>
      skb.linear.opts (o + 19 + i)
    let s := sumPiece ipComputeCsum (.start stack) head
    pure (finalCsum ipComputeCsum (skb.frags.foldl (sumFrag ipComputeCsum) s))

end Functions

/-! ## Frames and ways of splitting them -/

/-- A BERT frame: the payload is behind the BERT option, which ends the header, and the
    linear part holds the whole header. -/
def FragSkb.IsBert (skb : FragSkb) : Prop :=
  skb.linear.len.toNat ≤ skb.headlen ∧
    ∃ o, wfspktGetopt skb.linear wfsoptBert = .ok (some o) ∧
      o + 19 = skb.linear.len.toNat - wfspktHdrSize

def FragSkb.headPayload (skb : FragSkb) : List UInt8 :=
  (List.range (skb.headlen - skb.linear.len.toNat)).map fun i =>
    skb.linear.opts (skb.linear.len.toNat - wfspktHdrSize + i)

def FragSkb.payload (skb : FragSkb) : List UInt8 := skb.headPayload ++ skb.frags.flatten

/-- `ns` are the sizes of the fragments behind `p` bytes of payload.  A fragment that
    continues a partly filled block and does not complete it has no byte behind it. -/
def NoneOverwritten : (p : Nat) → (ns : List Nat) → Prop
  | _, [] => True
  | p, n :: ns =>
    (p % cblk ≠ 0 ∧ 0 < n ∧ p % cblk + n < cblk → ∀ m ∈ ns, m = 0) ∧ NoneOverwritten (p + n) ns

instance NoneOverwritten.decidable : (p : Nat) → (ns : List Nat) → Decidable (NoneOverwritten p ns)
  | _, [] => inferInstanceAs (Decidable True)
  | p, n :: ns =>
    have := NoneOverwritten.decidable (p + n) ns
    inferInstanceAs (Decidable ((_ → _) ∧ _))

theorem noneOverwritten_of_empty {p : Nat} {ns : List Nat} (h : ∀ m ∈ ns, m = 0) :
    NoneOverwritten p ns := by
  induction ns generalizing p with
  | nil => trivial
  | cons n ns ih =>
    obtain ⟨rfl, hns⟩ := List.forall_mem_cons.mp h
    exact ⟨fun _ => hns, ih hns⟩

/-! ## The loops as block streams -/

section Loops

variable {f : List UInt8 → UInt16} {ba : List UInt8} {frags : List (List UInt8)}

theorem cblk_pos : 0 < cblk := by decide

theorem memcpy_zeroBlock : memcpy zeroBlock 0 ba = ba ++ List.replicate (cblk - ba.length) 0 := by
  simp [memcpy, zeroBlock]

theorem cblkLoop_eq {fuel : Nat} {csum : UInt16} (hfuel : ba.length ≤ fuel) :
    cblkLoop f fuel csum ba = absorb cblk (fun c block => cblkCsum f block c) csum ba := by
  induction fuel generalizing csum ba with
  | zero =>
    rw [absorb_short (by have := cblk_pos; omega)]
    rfl
  | succ fuel ih =>
    rw [cblkLoop]
    split
    · next hfull =>
      rw [ih (by rw [List.length_drop]; have := cblk_pos; omega), absorb_full cblk_pos hfull]
    · next hshort => rw [absorb_short (by omega)]

def blocksOf (f : List UInt8 → UInt16) (d : List UInt8) : UInt16 × List UInt8 :=
  absorb cblk (fun c block => cblkCsum f block c) 0 d

def padded (r : List UInt8) : List UInt8 := r ++ List.replicate (cblk - r.length) 0

theorem blocksOf_snd_length (f : List UInt8 → UInt16) (d : List UInt8) :
    (blocksOf f d).2.length = d.length % cblk :=
  absorb_snd_length

theorem blocksOf_append (d va : List UInt8) :
    blocksOf f (d ++ va) =
      absorb cblk (fun c block => cblkCsum f block c) (blocksOf f d).1 ((blocksOf f d).2 ++ va) :=
  absorb_append cblk_pos

theorem blocksOf_short {d va : List UInt8} (hshort : d.length % cblk + va.length < cblk) :
    blocksOf f (d ++ va) = ((blocksOf f d).1, (blocksOf f d).2 ++ va) := by
  rw [blocksOf_append, absorb_short (by rw [List.length_append, blocksOf_snd_length]; exact hshort)]

theorem ixgbeWfsGetBertCsum_eq (d : List UInt8) :
    ixgbeWfsGetBertCsum f d = if d.length % cblk ≠ 0 then
      cblkCsum f (padded (blocksOf f d).2) (blocksOf f d).1 else (blocksOf f d).1 := by
  have hloop : cblkLoop f d.length 0 d = ((blocksOf f d).1, (blocksOf f d).2) := cblkLoop_eq le_rfl
  simp only [ixgbeWfsGetBertCsum, hloop, ← blocksOf_snd_length f d, Ne,
    List.length_eq_zero_iff, memcpy_zeroBlock, padded]

/-- The variables after the payload `d`: the whole blocks are in the checksum, and the block
    being filled holds what is behind them. -/
structure Carried (f : List UInt8 → UInt16) (d : List UInt8) (s : CsumState) : Prop where
  csum : s.csum = (blocksOf f d).1
  ba : s.ba = d.length % cblk
  b : s.b = cblk - d.length % cblk
  block : d.length % cblk ≠ 0 → s.cblk = padded (blocksOf f d).2

theorem Carried.start (stack : List UInt8) : Carried f [] (.start stack) :=
  ⟨rfl, rfl, rfl, fun h => absurd rfl h⟩

variable {d frag : List UInt8} {s : CsumState}

theorem Carried.sumPiece (h : Carried f d s) (haligned : d.length % cblk = 0) (va : List UInt8) :
    Carried f (d ++ va) (sumPiece f s va) := by
  have hempty : (blocksOf f d).2 = [] := by
    rw [← List.length_eq_zero_iff, blocksOf_snd_length, haligned]
  have hloop : cblkLoop f va.length s.csum va =
      ((blocksOf f (d ++ va)).1, (blocksOf f (d ++ va)).2) := by
    rw [blocksOf_append, hempty, List.nil_append, h.csum, cblkLoop_eq le_rfl]
  have hmod : (d ++ va).length % cblk = va.length % cblk := by
    rw [List.length_append, Nat.add_mod, haligned, Nat.zero_add, Nat.mod_mod]
  have hrest := blocksOf_snd_length f (d ++ va)
  have hba : s.ba = 0 := by rw [h.ba, haligned]
  have hb : s.b = cblk := by rw [h.b, haligned, Nat.sub_zero]
  simp only [Wfs.sumPiece, hloop]
  split
  · refine ⟨rfl, ?_, ?_, ?_⟩
    · simp only [hba, hrest, Nat.zero_add]
    · simp only [hb, hrest]
    · intro
      simp only [hba, memcpy_zeroBlock]
      rfl
  · next hnone =>
    have hzero : (d ++ va).length % cblk = 0 := by
      rw [← hrest, List.length_eq_zero_iff]
      exact not_not.mp hnone
    exact ⟨rfl, by rw [hzero]; exact hba, by rw [hzero]; exact hb, fun h => absurd hzero h⟩

theorem Carried.fill (h : Carried f d s) (hopen : d.length % cblk ≠ 0) (hlong : s.b ≤ frag.length) :
    (d ++ frag.take s.b).length % cblk = 0 ∧
      Carried f (d ++ frag.take s.b) (fillCblk f s frag).1 ∧
      (fillCblk f s frag).2 = frag.drop s.b := by
  have hlt : d.length % cblk < cblk := Nat.mod_lt _ cblk_pos
  have hb : s.b < cblk := by rw [h.b]; omega
  have hr := blocksOf_snd_length f d
  have htake : (frag.take s.b).length = s.b := by rw [List.length_take]; omega
  have hblock : memcpy s.cblk s.ba (frag.take s.b) = (blocksOf f d).2 ++ frag.take s.b := by
    have hba : s.ba = (blocksOf f d).2.length := by rw [h.ba, hr]
    rw [h.block hopen, padded, memcpy, hba, htake, List.take_left', List.drop_eq_nil_of_le,
      List.append_nil]
    · rw [List.length_append, List.length_replicate, hr, h.b]
    · rfl
  have hfull : ((blocksOf f d).2 ++ frag.take s.b).length = cblk := by
    rw [List.length_append, hr, htake, h.b]
    omega
  have hsum : blocksOf f (d ++ frag.take s.b) =
      (cblkCsum f ((blocksOf f d).2 ++ frag.take s.b) (blocksOf f d).1, []) := by
    rw [blocksOf_append, absorb_full cblk_pos (by rw [hfull]),
      List.take_of_length_le (by rw [hfull]), List.drop_eq_nil_of_le (by rw [hfull]),
      absorb_short cblk_pos]
  have hzero : (d ++ frag.take s.b).length % cblk = 0 := by
    rw [← blocksOf_snd_length f, hsum]
    rfl
  unfold fillCblk
  rw [if_pos hb, if_neg (by omega)]
  refine ⟨hzero, ⟨?_, ?_, ?_, fun h => absurd hzero h⟩, rfl⟩
  · rw [hsum, hblock, h.csum]
  · rw [hzero]
  · rw [hzero, Nat.sub_zero]

theorem Carried.short (h : Carried f d s) (hopen : d.length % cblk ≠ 0)
    (hshort : d.length % cblk + frag.length < cblk) :
    sumFrag f s frag = { s with cblk := padded ((blocksOf f d).2 ++ frag) } := by
  have hb : s.b = cblk - d.length % cblk := h.b
  have hr := blocksOf_snd_length f d
  have hcopy : memcpy s.cblk s.ba frag = padded ((blocksOf f d).2 ++ frag) := by
    rw [h.block hopen, padded, padded, memcpy, h.ba, ← hr, List.take_left' rfl, List.drop_append,
      List.drop_eq_nil_of_le (by omega), List.drop_replicate, List.nil_append, List.length_append,
      Nat.add_sub_cancel_left, Nat.sub_sub]
  unfold Wfs.sumFrag fillCblk
  rw [if_pos (by omega), if_pos (by omega)]
  simp only [hcopy, Nat.add_zero, Nat.sub_zero]
  rfl

theorem Carried.sumFrag (h : Carried f d s)
    (hdone : d.length % cblk = 0 ∨ frag = [] ∨ cblk ≤ d.length % cblk + frag.length) :
    Carried f (d ++ frag) (sumFrag f s frag) := by
  by_cases haligned : d.length % cblk = 0
  · have hfill : fillCblk f s frag = (s, frag) := by
      rw [fillCblk, if_neg (by rw [h.b, haligned]; decide)]
    rw [Wfs.sumFrag, hfill]
    exact h.sumPiece haligned frag
  · have hlt : d.length % cblk < cblk := Nat.mod_lt _ cblk_pos
    rcases hdone.resolve_left haligned with rfl | hlong
    · rw [h.short haligned (by simpa using hlt), List.append_nil, List.append_nil,
        ← h.block haligned]
      exact h
    · have hb : s.b ≤ frag.length := by rw [h.b]; omega
      obtain ⟨hzero, hfill, hrest⟩ := h.fill haligned hb
      have hpiece := hfill.sumPiece hzero (frag.drop s.b)
      rw [List.append_assoc, List.take_append_drop] at hpiece
      rw [Wfs.sumFrag]
      simp only [hrest]
      exact hpiece

theorem Carried.finalCsum (h : Carried f d s) : finalCsum f s = ixgbeWfsGetBertCsum f d := by
  have hlt : d.length % cblk < cblk := Nat.mod_lt _ cblk_pos
  rw [ixgbeWfsGetBertCsum_eq, Wfs.finalCsum]
  by_cases hopen : d.length % cblk = 0
  · rw [if_neg (by rw [h.b]; omega), if_neg (not_not.mpr hopen), h.csum]
  · rw [if_pos (by rw [h.b]; omega), if_pos hopen, h.csum, h.block hopen]

theorem sumFrag_nil (hb : s.b < cblk) (hb0 : 0 < s.b) : sumFrag f s [] = s := by
  unfold sumFrag fillCblk
  rw [if_pos hb, if_pos (show ([] : List UInt8).length < s.b from hb0)]
  simp only [memcpy, List.append_nil, List.length_nil, Nat.add_zero, Nat.sub_zero,
    List.take_append_drop]
  rfl

theorem foldl_sumFrag_empty (hb : s.b < cblk) (hb0 : 0 < s.b) (hempty : ∀ frag ∈ frags, frag = []) :
    frags.foldl (sumFrag f) s = s := by
  induction frags with
  | nil => rfl
  | cons frag frags ih =>
    obtain ⟨rfl, hrest⟩ := List.forall_mem_cons.mp hempty
    rw [List.foldl_cons, sumFrag_nil hb hb0, ih hrest]

/-- **The loop over the fragments.** If no fragment is overwritten it computes the checksum of
    the payload in one piece. -/
theorem Carried.foldl_sumFrag (h : Carried f d s)
    (hnone : NoneOverwritten d.length (frags.map List.length)) :
    Wfs.finalCsum f (frags.foldl (Wfs.sumFrag f) s) = ixgbeWfsGetBertCsum f (d ++ frags.flatten) := by
  induction frags generalizing d s with
  | nil => simpa using h.finalCsum
  | cons frag frags ih =>
    obtain ⟨hrest, hnone'⟩ := hnone
    rw [List.foldl_cons, List.flatten_cons, ← List.append_assoc]
    by_cases hdone : d.length % cblk = 0 ∨ frag = [] ∨ cblk ≤ d.length % cblk + frag.length
    · refine ih (h.sumFrag hdone) ?_
      rw [List.length_append]
      exact hnone'
    · -- the fragment leaves the block open, so only empty ones follow
      obtain ⟨hopen, hfrag, hshort⟩ : d.length % cblk ≠ 0 ∧ frag ≠ [] ∧
          d.length % cblk + frag.length < cblk := by
        simpa [not_or] using hdone
      have hempty : ∀ g ∈ frags, g = [] := by
        intro g hg
        have := hrest ⟨hopen, List.length_pos_of_ne_nil hfrag, hshort⟩ g.length
          (List.mem_map_of_mem hg)
        exact List.length_eq_zero_iff.mp this
      have hflat : frags.flatten = [] := List.flatten_eq_nil_iff.mpr hempty
      have hb : s.b = cblk - d.length % cblk := h.b
      have hblocks := blocksOf_short (f := f) hshort
      have hmod : (d ++ frag).length % cblk ≠ 0 := by
        rw [← blocksOf_snd_length f, hblocks, List.length_append, blocksOf_snd_length]
        omega
      rw [h.short hopen hshort,
        foldl_sumFrag_empty (by dsimp only; omega) (by dsimp only; omega) hempty, hflat,
        List.append_nil, ixgbeWfsGetBertCsum_eq, if_pos hmod, hblocks, Wfs.finalCsum,
        if_pos (by dsimp only; omega), h.csum]

end Loops

/-! ## A payload that shows an overwritten fragment -/

section Overwritten

def detect (block : List UInt8) : UInt16 := if ∀ x ∈ block, x = 0 then 0 else 1

def zeros (n : Nat) : List UInt8 := List.replicate n 0

@[simp] theorem length_zeros (n : Nat) : (zeros n).length = n := List.length_replicate

theorem zeros_append (m n : Nat) : zeros m ++ zeros n = zeros (m + n) :=
  List.replicate_append_replicate

theorem map_length_zeros (ns : List Nat) : (ns.map zeros).map List.length = ns := by
  rw [List.map_map]
  exact (List.map_congr_left fun n _ => length_zeros n).trans (List.map_id ns)

theorem blocksOf_zeros (f : List UInt8 → UInt16) (p : Nat) :
    (blocksOf f (zeros p)).2 = zeros (p % cblk) := by
  simp only [blocksOf, absorb, zeros, List.length_replicate, List.drop_replicate, Nat.mod_eq_sub]

theorem eq_zero_of_mem_zeros {n : Nat} {x : UInt8} (h : x ∈ zeros n) : x = 0 :=
  List.eq_of_mem_replicate h

variable {block : List UInt8} {ns : List Nat}

theorem cblkCsum_detect_zero (h : ∀ x ∈ block, x = 0) (csum : UInt16) :
    cblkCsum detect block csum = csum := by
  simp [cblkCsum, detect, if_pos h]

theorem absorb_detect_zero {xs : List UInt8} (h : ∀ x ∈ xs, x = 0) (csum : UInt16) :
    (absorb cblk (fun c block => cblkCsum detect block c) csum xs).1 = csum :=
  absorb_fixed cblk_pos (P := fun x => x = 0) (fun _ hblock => cblkCsum_detect_zero hblock _) h

theorem csum_detect_spike (p q : Nat) :
    ixgbeWfsGetBertCsum detect (zeros p ++ 1 :: zeros q) = 1 := by
  have hzeros : ∀ x ∈ zeros p, x = 0 := fun x hx => eq_zero_of_mem_zeros hx
  have hlt : p % cblk < cblk := Nat.mod_lt _ cblk_pos
  have hcsum : (blocksOf detect (zeros p)).1 = 0 := absorb_detect_zero hzeros 0
  have hlen : (blocksOf detect (zeros p)).2.length = p % cblk := by
    rw [blocksOf_snd_length, length_zeros]
  have hdetect : ∀ block : List UInt8, 1 ∈ block → ∀ csum, cblkCsum detect block csum = csum ^^^ 1 := by
    intro block hmem csum
    have hne : ¬∀ x ∈ block, x = 0 := fun h => absurd (h 1 hmem) (by decide)
    rw [cblkCsum, detect, if_neg hne]
  rw [ixgbeWfsGetBertCsum_eq]
  by_cases hshort : p % cblk + (1 + q) < cblk
  · -- the byte is in the block at the end
    have hblocks : blocksOf detect (zeros p ++ 1 :: zeros q) =
        ((blocksOf detect (zeros p)).1, (blocksOf detect (zeros p)).2 ++ 1 :: zeros q) := by
      apply blocksOf_short
      simp only [length_zeros, List.length_cons]
      omega
    have hopen : (zeros p ++ 1 :: zeros q).length % cblk ≠ 0 := by
      rw [← blocksOf_snd_length detect, hblocks, List.length_append]
      simp
    rw [if_pos hopen, hblocks, hcsum, hdetect _ (by simp [padded])]
    rfl
  · -- the byte is in a whole block, and only zeros follow
    have hfull : cblk ≤ ((blocksOf detect (zeros p)).2 ++ 1 :: zeros q).length := by
      rw [List.length_append, hlen, List.length_cons, length_zeros]
      omega
    have hmem : (1 : UInt8) ∈ ((blocksOf detect (zeros p)).2 ++ 1 :: zeros q).take cblk := by
      rw [List.take_append, hlen, show cblk - p % cblk = cblk - p % cblk - 1 + 1 by omega,
        List.take_succ_cons]
      simp
    have hrest : ∀ x ∈ ((blocksOf detect (zeros p)).2 ++ 1 :: zeros q).drop cblk, x = 0 := by
      rw [List.drop_append, hlen, show cblk - p % cblk = cblk - p % cblk - 1 + 1 by omega,
        List.drop_succ_cons, List.drop_eq_nil_of_le (by omega), List.nil_append]
      exact fun x hx => eq_zero_of_mem_zeros (List.mem_of_mem_drop hx)
    have hone : (blocksOf detect (zeros p ++ 1 :: zeros q)).1 = 1 := by
      rw [blocksOf_append, absorb_full cblk_pos hfull, absorb_detect_zero hrest, hcsum,
        hdetect _ hmem]
      rfl
    have hpad : ∀ x ∈ padded (blocksOf detect (zeros p ++ 1 :: zeros q)).2, x = 0 := by
      rw [blocksOf_append, absorb_full cblk_pos hfull]
      intro x hx
      rcases List.mem_append.mp hx with hx | hx
      · exact hrest x (List.mem_of_mem_drop hx)
      · exact eq_zero_of_mem_zeros hx
    rw [hone, cblkCsum_detect_zero hpad, ite_self]

theorem memcpy_zero {dst src : List UInt8} {o : Nat} (htake : ∀ x ∈ dst.take o, x = 0)
    (hsrc : ∀ x ∈ src, x = 0) (hdrop : ∀ x ∈ dst.drop (o + src.length), x = 0) :
    ∀ x ∈ memcpy dst o src, x = 0 := by
  intro x hx
  rcases List.mem_append.mp hx with hx | hx
  · rcases List.mem_append.mp hx with hx | hx
    · exact htake x hx
    · exact hsrc x hx
  · exact hdrop x hx

def AllZero (s : CsumState) : Prop := s.csum = 0 ∧ (s.b < cblk → ∀ x ∈ s.cblk, x = 0)

variable {s : CsumState} {frag : List UInt8}

theorem AllZero.sumPiece (h : AllZero s) (hfrag : ∀ x ∈ frag, x = 0) :
    AllZero (sumPiece detect s frag) := by
  have hcsum := absorb_detect_zero hfrag s.csum
  have hzero : ∀ o, ∀ x ∈ memcpy zeroBlock o
      (absorb cblk (fun c block => cblkCsum detect block c) s.csum frag).2, x = 0 := by
    intro o
    refine memcpy_zero (fun x hx => ?_) (fun x hx => ?_) fun x hx => ?_
    · exact eq_zero_of_mem_zeros (List.mem_of_mem_take hx)
    · exact hfrag x (List.mem_of_mem_drop hx)
    · exact eq_zero_of_mem_zeros (List.mem_of_mem_drop hx)
  unfold Wfs.sumPiece
  rw [cblkLoop_eq le_rfl]
  dsimp only
  split
  · exact ⟨hcsum.trans h.1, fun _ => hzero _⟩
  · exact ⟨hcsum.trans h.1, h.2⟩

theorem AllZero.of_memcpy (hcsum : s.csum = 0) (hfrag : ∀ x ∈ frag, x = 0) (hb : s.b < cblk)
    (hshort : ∀ x ∈ memcpy s.cblk s.ba frag, x = 0)
    (hlong : s.b ≤ frag.length → ∀ x ∈ memcpy s.cblk s.ba (frag.take s.b), x = 0) :
    AllZero (sumFrag detect s frag) := by
  unfold sumFrag fillCblk
  by_cases hlen : frag.length < s.b
  · rw [if_pos hb, if_pos hlen]
    exact AllZero.sumPiece ⟨hcsum, fun _ => hshort⟩ (fun _ h => absurd h List.not_mem_nil)
  · rw [if_pos hb, if_neg hlen]
    refine AllZero.sumPiece ⟨?_, fun h => absurd h (lt_irrefl _)⟩
      fun x hx => hfrag x (List.mem_of_mem_drop hx)
    exact (cblkCsum_detect_zero (hlong (by omega)) _).trans hcsum

theorem AllZero.sumFrag (h : AllZero s) (hfrag : ∀ x ∈ frag, x = 0) :
    AllZero (sumFrag detect s frag) := by
  by_cases hb : s.b < cblk
  · have hcopy : ∀ src : List UInt8, (∀ x ∈ src, x = 0) → ∀ x ∈ memcpy s.cblk s.ba src, x = 0 :=
      fun src hsrc => memcpy_zero (fun x hx => h.2 hb x (List.mem_of_mem_take hx)) hsrc
        fun x hx => h.2 hb x (List.mem_of_mem_drop hx)
    exact .of_memcpy h.1 hfrag hb (hcopy _ hfrag)
      fun _ => hcopy _ fun x hx => hfrag x (List.mem_of_mem_take hx)
  · unfold Wfs.sumFrag fillCblk
    rw [if_neg hb]
    exact h.sumPiece hfrag

theorem AllZero.of_spike {r n : Nat} (hcsum : s.csum = 0) (hba : s.ba = r)
    (hb : 0 < s.b ∧ s.b < cblk) (hblock : s.cblk = zeros r ++ 1 :: block)
    (hzero : ∀ x ∈ block, x = 0) : AllZero (Wfs.sumFrag detect s (zeros (n + 1))) := by
  have hfrag : ∀ x ∈ zeros (n + 1), x = 0 := fun x hx => eq_zero_of_mem_zeros hx
  have hcopy : ∀ src : List UInt8, 0 < src.length → (∀ x ∈ src, x = 0) →
      ∀ x ∈ memcpy s.cblk s.ba src, x = 0 := by
    intro src hpos hsrc
    have hr : (zeros r).length = r := length_zeros r
    refine memcpy_zero ?_ hsrc ?_
    · rw [hblock, hba, List.take_left' hr]
      exact fun x hx => eq_zero_of_mem_zeros hx
    · rw [hblock, hba, List.drop_append, List.drop_eq_nil_of_le (by omega), hr,
        Nat.add_sub_cancel_left, List.nil_append, ← Nat.succ_pred_eq_of_pos hpos,
        List.drop_succ_cons]
      exact fun x hx => hzero x (List.mem_of_mem_drop hx)
  refine .of_memcpy hcsum hfrag hb.2 (hcopy _ (by simp [zeros]) hfrag) fun hlen => ?_
  refine hcopy _ ?_ fun x hx => hfrag x (List.mem_of_mem_take hx)
  rw [List.length_take]
  omega

theorem AllZero.finalCsum (h : AllZero s) : finalCsum detect s = 0 := by
  unfold Wfs.finalCsum
  split
  · next hb => rw [cblkCsum_detect_zero (h.2 hb), h.1]
  · exact h.1

theorem AllZero.foldl (h : AllZero s) : AllZero ((ns.map zeros).foldl (Wfs.sumFrag detect) s) := by
  induction ns generalizing s with
  | nil => exact h
  | cons n ns ih => exact ih (h.sumFrag fun _ hx => eq_zero_of_mem_zeros hx)

theorem AllZero.foldl_of_spike {r : Nat} (hcsum : s.csum = 0) (hba : s.ba = r)
    (hb : 0 < s.b ∧ s.b < cblk) (hblock : s.cblk = zeros r ++ 1 :: block)
    (hzero : ∀ x ∈ block, x = 0) (hns : ∃ m ∈ ns, m ≠ 0) :
    AllZero ((ns.map zeros).foldl (Wfs.sumFrag detect) s) := by
  induction ns with
  | nil => simp at hns
  | cons n ns ih =>
    cases n with
    | zero =>
      rw [List.map_cons, List.foldl_cons, show zeros 0 = [] from rfl, sumFrag_nil hb.2 hb.1]
      exact ih (by simpa using hns)
    | succ n =>
      rw [List.map_cons, List.foldl_cons]
      exact (AllZero.of_spike hcsum hba hb hblock hzero).foldl

theorem flatten_map_zeros (ns : List Nat) : ∃ q, (ns.map zeros).flatten = zeros q := by
  induction ns with
  | nil => exact ⟨0, rfl⟩
  | cons n ns ih =>
    obtain ⟨q, hq⟩ := ih
    exact ⟨n + q, by rw [List.map_cons, List.flatten_cons, hq, zeros_append]⟩

theorem exists_overwritten {p : Nat} (h : Carried detect (zeros p) s)
    (hbad : ¬NoneOverwritten p ns) :
    ∃ frags : List (List UInt8), frags.map List.length = ns ∧
      Wfs.finalCsum detect (frags.foldl (Wfs.sumFrag detect) s) ≠
        ixgbeWfsGetBertCsum detect (zeros p ++ frags.flatten) := by
  induction ns generalizing p s with
  | nil => exact absurd trivial hbad
  | cons n ns ih =>
    by_cases hlost : p % cblk ≠ 0 ∧ 0 < n ∧ p % cblk + n < cblk ∧ ∃ m ∈ ns, m ≠ 0
    · -- the first byte of this fragment is the one that gets lost
      obtain ⟨hopen, hpos, hshort, hnext⟩ := hlost
      obtain ⟨n, rfl⟩ : ∃ k, n = k + 1 := ⟨n - 1, by omega⟩
      obtain ⟨q, hq⟩ := flatten_map_zeros ns
      refine ⟨(1 :: zeros n) :: ns.map zeros, ?_, ?_⟩
      · rw [List.map_cons, map_length_zeros, List.length_cons, length_zeros]
      have hspec : ixgbeWfsGetBertCsum detect
          (zeros p ++ ((1 :: zeros n) :: ns.map zeros).flatten) = 1 := by
        rw [List.flatten_cons, hq, List.cons_append, zeros_append]
        exact csum_detect_spike p (n + q)
      have hall : AllZero (((1 :: zeros n) :: ns.map zeros).foldl (Wfs.sumFrag detect) s) := by
        have hb := h.b
        have hba := h.ba
        rw [length_zeros] at hb hba
        have hspike : padded ((blocksOf detect (zeros p)).2 ++ 1 :: zeros n) =
            zeros (p % cblk) ++ 1 :: (zeros n ++ zeros (cblk -
              (zeros (p % cblk) ++ 1 :: zeros n).length)) := by
          rw [blocksOf_zeros, padded, List.append_assoc, List.cons_append]
          rfl
        have hcsum := h.csum.trans (absorb_detect_zero (fun x hx => eq_zero_of_mem_zeros hx) 0)
        rw [List.foldl_cons, h.short (by rwa [length_zeros]) (by simpa using hshort)]
        have hb' : 0 < s.b ∧ s.b < cblk := by omega
        refine AllZero.foldl_of_spike (s := { s with cblk := padded _ }) hcsum hba hb' hspike ?_
          hnext
        rw [zeros_append]
        exact fun x hx => eq_zero_of_mem_zeros hx
      rw [hall.finalCsum, hspec]
      decide
    · have hhead : p % cblk ≠ 0 ∧ 0 < n ∧ p % cblk + n < cblk → ∀ m ∈ ns, m = 0 := by
        intro hopen m hm
        by_contra hne
        exact hlost ⟨hopen.1, hopen.2.1, hopen.2.2, m, hm, hne⟩
      have hrest : ¬NoneOverwritten (p + n) ns := fun h => hbad ⟨hhead, h⟩
      have hdone : (zeros p).length % cblk = 0 ∨ zeros n = [] ∨
          cblk ≤ (zeros p).length % cblk + (zeros n).length := by
        rw [← List.length_eq_zero_iff, length_zeros, length_zeros]
        by_contra hopen
        exact hrest (noneOverwritten_of_empty (hhead (by omega)))
      have hnext := h.sumFrag hdone
      rw [zeros_append] at hnext
      obtain ⟨frags, hsizes, hne⟩ := ih hnext hrest
      refine ⟨zeros n :: frags, by rw [List.map_cons, hsizes, length_zeros], ?_⟩
      rwa [List.foldl_cons, List.flatten_cons, ← List.append_assoc, zeros_append]

end Overwritten

/-! ## The two checksums -/

/-- A BERT frame with `h` payload bytes in its linear part, all 0, in front of `frags`. -/
def frameOf (h : Nat) (frags : List (List UInt8)) : FragSkb :=
  { linear :=
      { hDest := Mac.broadcast, hSource := Mac.broadcast, hProto := wfspktEthertype
        type := wfspktTypeCtrlBert, dest := 1, src := 2, len := 37
        opts := fun i => if i = 0 then wfsoptBert else if i = 1 then 19 else 0
        skbLen := 37 + h + (frags.map List.length).sum, vlanTci := 0 }
    frags }

theorem headlen_frameOf (h : Nat) (frags : List (List UInt8)) :
    (frameOf h frags).headlen = 37 + h :=
  Nat.add_sub_cancel _ _

theorem isBert_frameOf (h : Nat) (frags : List (List UInt8)) : (frameOf h frags).IsBert := by
  refine ⟨?_, 0, rfl, rfl⟩
  rw [headlen_frameOf]
  exact Nat.le_add_right 37 h

theorem headPayload_frameOf (h : Nat) (frags : List (List UInt8)) :
    (frameOf h frags).headPayload = zeros h := by
  have hlen : (frameOf h frags).headlen - (frameOf h frags).linear.len.toNat = h := by
    rw [headlen_frameOf]
    exact Nat.add_sub_cancel_left _ _
  unfold FragSkb.headPayload
  rw [hlen]
  refine List.eq_replicate_iff.mpr ⟨by simp, fun x hx => ?_⟩
  obtain ⟨i, -, rfl⟩ := List.mem_map.mp hx
  have h0 : (frameOf h frags).linear.len.toNat - wfspktHdrSize + i = 19 + i := rfl
  rw [h0]
  simp only [frameOf]
  rw [if_neg (by omega), if_neg (by omega)]

theorem ixgbeWfsGetBertSkbCsum_eq (f : List UInt8 → UInt16) (stack : List UInt8) {skb : FragSkb}
    (h : skb.IsBert) :
    ixgbeWfsGetBertSkbCsum f stack skb = .ok (finalCsum f
      (skb.frags.foldl (sumFrag f) (sumPiece f (.start stack) skb.headPayload))) := by
  obtain ⟨-, o, hopt, hend⟩ := h
  simp only [ixgbeWfsGetBertSkbCsum, hopt, bind, Except.bind, pure, Except.pure, hend,
    FragSkb.headPayload]

/-- **The two checksums** agree on every BERT frame that is split in one way, whatever its
    payload and the checksum of a block, exactly if no fragment is overwritten. -/
theorem bertSkbCsum_agrees_iff (h : Nat) (ns : List Nat) :
    (∀ (f : List UInt8 → UInt16) (stack : List UInt8) (skb : FragSkb), skb.IsBert →
      skb.headPayload.length = h → skb.frags.map List.length = ns →
      ixgbeWfsGetBertSkbCsum f stack skb = .ok (ixgbeWfsGetBertCsum f skb.payload)) ↔
      NoneOverwritten h ns := by
  constructor
  · intro hagree
    by_contra hbad
    have hstart := (Carried.start (f := detect) []).sumPiece rfl (zeros h)
    obtain ⟨frags, hsizes, hne⟩ := exists_overwritten hstart hbad
    have hbert := isBert_frameOf h frags
    have hhead := headPayload_frameOf h frags
    have hsame := hagree detect [] _ hbert (by rw [hhead, length_zeros]) hsizes
    rw [ixgbeWfsGetBertSkbCsum_eq detect [] hbert, FragSkb.payload, hhead] at hsame
    exact hne (Except.ok.inj hsame)
  · rintro hnone f stack skb hbert rfl rfl
    have hstart := (Carried.start (f := f) stack).sumPiece rfl skb.headPayload
    rw [ixgbeWfsGetBertSkbCsum_eq f stack hbert, hstart.foldl_sumFrag hnone]
    rfl

/-- Three payload bytes, one in each of the linear part and two fragments: the third one
    overwrites the second. -/
theorem bertSkbCsum_one_byte_fragments :
    ixgbeWfsGetBertSkbCsum detect [] (frameOf 1 [[1], [0]]) ≠
      .ok (ixgbeWfsGetBertCsum detect (frameOf 1 [[1], [0]]).payload) := by
  rw [ixgbeWfsGetBertSkbCsum_eq detect [] (isBert_frameOf _ _), headPayload_frameOf]
  intro h
  exact absurd (Except.ok.inj h) (by decide +kernel)

end VmkDrivers.Wfs
