/-
  VmkDrivers.Vmklinux.ProcRead

  `LinuxProcRead` (`linux_proc.c`), which calls the `read_proc` of a driver until
  it has the whole text.

  A round of the loop is a step, whose label is what the handler does in it: any
  sequence of results is a run.  A negative result is not less than the offset as
  an unsigned number, and is then the length of a copy (`proc_read_negative`).
  Apart from that a read ends, stays inside the page and the buffer, and has the
  whole of a text that is served by either convention (`proc_read_iff`).

  A node without a handler is refused in front of the loop.
-/

import VmkDrivers.Lib.Transition

namespace VmkDrivers.Vmklinux

open VmkDrivers.Lib

/-! ## The loop -/

/-- `VMK_PAGE_SIZE`, the size of `scratch_page` -/
def scratchPageSize : Nat := 4096

def procBlockSize : Nat := scratchPageSize - 1024

/-- `VMK_PROC_READ_MAX` -/
def procReadMax : Nat := 128 * 1024

/-- A call of `read_proc`: what it leaves in the page, and what it returns.  A `start` is given by
    its place in the page. -/
structure ReadResult where
  page : Nat → UInt8
  start : Option Nat
  nread : BitVec 32
  eof : Bool

/-- The local variables, and what has been written to `buffer`. -/
structure ReadState where
  off : BitVec 32 := 0
  nread : BitVec 32 := 1
  eof : Bool := false
  buffer : Nat → Option UInt8 := fun _ => none
  /-- The `break`. -/
  left : Bool := false
  /-- A copy went outside the page or the buffer. -/
  overrun : Bool := false

namespace ReadState

variable (s : ReadState)

def goesOn : Bool :=
  !s.left && !s.overrun && !s.eof && s.nread ≠ 0 &&
    s.off + BitVec.ofNat 32 procBlockSize < BitVec.ofNat 32 procReadMax

/-- `memcpy(buffer + off, start, nread)` and `off += nread` -/
def copy (r : ReadResult) (start : Nat) (nread : BitVec 32) : ReadState :=
  -- the `int` is extended to a `size_t`
  let size := (nread.signExtend 64).toNat
  if start + size ≤ scratchPageSize ∧ s.off.toNat + size ≤ procReadMax then
    { s with
      off := s.off + nread
      nread := nread
      eof := r.eof
      buffer := fun i =>
        if s.off.toNat ≤ i ∧ i < s.off.toNat + size then some (r.page (start + (i - s.off.toNat)))
        else s.buffer i }
  else { s with overrun := true }

def body (r : ReadResult) : ReadState :=
  match r.start with
  | none =>
    -- the comparison is unsigned
    if r.nread ≤ s.off then { s with nread := r.nread, eof := r.eof, left := true }
    else s.copy r s.off.toNat (r.nread - s.off)
  | some start => s.copy r start r.nread

end ReadState

/-! ## Handlers -/

def maxErrno : Nat := 4095

/-- A result is an error or at most a block, and a chunk begins in the page and is inside it. -/
structure ReadResult.Valid (r : ReadResult) : Prop where
  errno : -(maxErrno : Int) ≤ r.nread.toInt
  block : r.nread.toInt ≤ procBlockSize
  inside : ∀ start ∈ r.start, start ≤ scratchPageSize ∧
    (0 < r.nread.toInt → start + r.nread.toNat ≤ scratchPageSize)

/-- One round; when the loop is left, `*len` is `off`. -/
def ReadStep (s : ReadState) (r : ReadResult) (t : ReadState) : Prop :=
  s.goesOn = true ∧ r.Valid ∧ s.body r = t

inductive ReadConvention where
  | whole
  | chunk
deriving DecidableEq, Repr

def ReadConvention.Serves (text : List UInt8) (s : ReadState) (r : ReadResult) :
    ReadConvention → Prop
  | .whole => text.length ≤ procBlockSize ∧ r.start = none ∧ r.nread.toNat = text.length ∧
      ∀ i < text.length, some (r.page i) = text[i]?
  | .chunk =>
    if s.off.toNat < text.length then
      ∃ start, r.start = some start ∧ 0 < r.nread.toNat ∧ r.nread.toNat ≤ procBlockSize ∧
        start + r.nread.toNat ≤ scratchPageSize ∧ s.off.toNat + r.nread.toNat ≤ text.length ∧
        (r.eof = true → s.off.toNat + r.nread.toNat = text.length) ∧
        ∀ i < r.nread.toNat, some (r.page (start + i)) = text[s.off.toNat + i]?
    else r.nread = 0 ∧ ∀ start ∈ r.start, start ≤ scratchPageSize

/-! ## What is promised -/

/-- Nothing was copied from outside the page or to outside the buffer, and `off` is the number of
    bytes that were. -/
structure ReadState.Safe (s : ReadState) : Prop where
  inside : s.overrun = false
  bound : s.off.toNat ≤ procReadMax
  copied : ∀ i, (s.buffer i).isSome = true ↔ i < s.off.toNat

def ReadState.HasRead (text : List UInt8) (s : ReadState) : Prop :=
  s.off.toNat = text.length ∧ ∀ i, s.buffer i = text[i]?

/-! ## One round -/

variable {s t : ReadState} {r : ReadResult} {start : Nat} {nread : BitVec 32} {text : List UInt8}

theorem goesOn_spec (h : s.goesOn = true) : s.left = false ∧ s.overrun = false ∧ s.eof = false ∧
    s.nread ≠ 0 ∧ (s.off + BitVec.ofNat 32 procBlockSize).toNat < procReadMax := by
  unfold ReadState.goesOn at h
  simp only [Bool.and_eq_true, Bool.not_eq_true', decide_eq_true_eq] at h
  obtain ⟨⟨⟨⟨hleft, hover⟩, heof⟩, hnread⟩, hoff⟩ := h
  exact ⟨hleft, hover, heof, hnread, BitVec.lt_def.mp hoff⟩

theorem size_of_small (h : nread.toNat < 2 ^ 31) : (nread.signExtend 64).toNat = nread.toNat := by
  have hmsb : nread.msb = false := by
    rw [BitVec.msb_eq_decide]
    exact decide_eq_false (by omega)
  rw [BitVec.signExtend_eq_setWidth_of_msb_false hmsb, BitVec.toNat_setWidth]
  exact Nat.mod_eq_of_lt (by omega)

theorem copy_of_small (hsmall : nread.toNat < 2 ^ 31)
    (hpage : start + nread.toNat ≤ scratchPageSize)
    (hbuffer : s.off.toNat + nread.toNat ≤ procReadMax) :
    s.copy r start nread = { s with
      off := s.off + nread
      nread := nread
      eof := r.eof
      buffer := fun i =>
        if s.off.toNat ≤ i ∧ i < s.off.toNat + nread.toNat then
          some (r.page (start + (i - s.off.toNat)))
        else s.buffer i } := by
  unfold ReadState.copy
  rw [size_of_small hsmall]
  exact if_pos ⟨hpage, hbuffer⟩

theorem copy_of_large (hlarge : scratchPageSize < nread.toNat) :
    (s.copy r start nread).overrun = true := by
  unfold ReadState.copy
  have hsize : scratchPageSize < (nread.signExtend 64).toNat := by
    by_cases hsmall : nread.toNat < 2 ^ 31
    · rw [size_of_small hsmall]
      exact hlarge
    · have hmsb : nread.msb = true := by
        rw [BitVec.msb_eq_decide]
        exact decide_eq_true (by omega)
      rw [BitVec.toNat_signExtend, hmsb, if_pos rfl]
      omega
  rw [if_neg (by omega)]

theorem room_of_goesOn (h : s.goesOn = true) (hs : s.Safe) :
    s.off.toNat + procBlockSize < procReadMax := by
  have hbound := hs.bound
  have hroom := (goesOn_spec h).2.2.2.2
  unfold procBlockSize scratchPageSize procReadMax at *
  rw [BitVec.toNat_add, BitVec.toNat_ofNat] at hroom
  omega

theorem off_add (hbuffer : s.off.toNat + nread.toNat ≤ procReadMax) :
    (s.off + nread).toNat = s.off.toNat + nread.toNat := by
  unfold procReadMax at hbuffer
  rw [BitVec.toNat_add]
  exact Nat.mod_eq_of_lt (by omega)

theorem ReadResult.Valid.of_nonneg (h : r.Valid) (hnn : 0 ≤ r.nread.toInt) :
    r.nread.toNat ≤ procBlockSize := by
  have hblock := h.block
  rw [BitVec.toInt_eq_toNat_cond] at hnn hblock
  have hlt := r.nread.isLt
  split at hblock <;> omega

theorem ReadResult.Valid.of_neg (h : r.Valid) (hneg : r.nread.toInt < 0) :
    2 ^ 32 - maxErrno ≤ r.nread.toNat := by
  have herrno := h.errno
  rw [BitVec.toInt_eq_toNat_cond] at hneg herrno
  have hlt := r.nread.isLt
  split at herrno <;> omega

theorem ReadState.Safe.copy (hs : s.Safe) (hpage : start + nread.toNat ≤ scratchPageSize)
    (hbuffer : s.off.toNat + nread.toNat ≤ procReadMax) :
    (s.copy r start nread).Safe ∧
      ((s.copy r start nread).nread = 0 ∨ s.off.toNat < (s.copy r start nread).off.toNat) := by
  have hsmall : nread.toNat < 2 ^ 31 := by
    unfold scratchPageSize at hpage
    omega
  rw [copy_of_small hsmall hpage hbuffer]
  have hoff := off_add hbuffer
  -- the bytes behind the offset are there now
  refine ⟨⟨hs.inside, by dsimp only; omega, fun i => ?_⟩, ?_⟩
  · dsimp only
    rw [hoff]
    split
    · next hin => exact iff_of_true rfl hin.2
    · next hout =>
      rw [hs.copied]
      omega
  · rw [hoff]
    by_cases hzero : nread = 0
    · exact .inl hzero
    · have hpos : nread.toNat ≠ 0 := fun h => hzero (BitVec.eq_of_toNat_eq h)
      exact .inr (by omega)

theorem toNat_rest (h : ¬r.nread ≤ s.off) :
    s.off.toNat < r.nread.toNat ∧ (r.nread - s.off).toNat = r.nread.toNat - s.off.toNat := by
  rw [BitVec.le_def] at h
  exact ⟨by omega, BitVec.toNat_sub_of_le (BitVec.le_def.mpr (by omega))⟩

/-- **A result that is not negative.** -/
theorem ReadState.Safe.body (hs : s.Safe) (hgo : s.goesOn = true) (hvalid : r.Valid)
    (hnn : 0 ≤ r.nread.toInt) : (s.body r).Safe ∧
      ((s.body r).left = true ∨ (s.body r).nread = 0 ∨ s.off.toNat < (s.body r).off.toNat) := by
  have hroom := room_of_goesOn hgo hs
  have hblock := hvalid.of_nonneg hnn
  have hpage : procBlockSize ≤ scratchPageSize := by decide
  unfold ReadState.body
  split
  · split
    -- nothing behind the offset: the loop is left
    · exact ⟨⟨hs.inside, hs.bound, hs.copied⟩, .inl rfl⟩
    · next hbehind =>
      obtain ⟨hlt, hrest⟩ := toNat_rest hbehind
      have hcopy : (s.copy r s.off.toNat (r.nread - s.off)).Safe ∧ _ :=
        hs.copy (by omega) (by omega)
      exact ⟨hcopy.1, .inr hcopy.2⟩
  · next start hstart =>
    obtain ⟨hbegin, hchunk⟩ := hvalid.inside start hstart
    -- an empty chunk has its place at most behind the page
    have hinside : start + r.nread.toNat ≤ scratchPageSize := by
      by_cases hzero : r.nread.toNat = 0
      · omega
      · refine hchunk ?_
        rw [BitVec.toInt_eq_toNat_cond] at hnn ⊢
        split at hnn <;> omega
    have hcopy := hs.copy (r := r) hinside (by omega)
    exact ⟨hcopy.1, .inr hcopy.2⟩

/-- **A negative result** is the length of a copy. -/
theorem body_of_neg (hs : s.Safe) (hvalid : r.Valid) (hneg : r.nread.toInt < 0) :
    (s.body r).overrun = true := by
  have hlarge := hvalid.of_neg hneg
  have hbound := hs.bound
  unfold maxErrno procReadMax at *
  unfold ReadState.body
  split
  -- as an unsigned number it is far behind the offset
  · have hbehind : ¬r.nread ≤ s.off := by
      rw [BitVec.le_def]
      omega
    rw [if_neg hbehind]
    obtain ⟨-, hrest⟩ := toNat_rest hbehind
    refine copy_of_large ?_
    unfold scratchPageSize
    omega
  · refine copy_of_large ?_
    unfold scratchPageSize
    omega

/-! ## Texts -/

/-- What has been read is the beginning of the text, and all of it if the loop is to end. -/
structure ReadState.HasPart (text : List UInt8) (s : ReadState) : Prop where
  inside : s.overrun = false
  bound : s.off.toNat ≤ text.length
  part : ∀ i, s.buffer i = if i < s.off.toNat then text[i]? else none
  whole : s.left = true ∨ s.eof = true ∨ s.nread = 0 → s.off.toNat = text.length

theorem ReadState.HasPart.copy (hs : s.HasPart text) (htext : text.length ≤ procReadMax)
    (hpage : start + nread.toNat ≤ scratchPageSize)
    (hbound : s.off.toNat + nread.toNat ≤ text.length)
    (hbytes : ∀ i < nread.toNat, some (r.page (start + i)) = text[s.off.toNat + i]?)
    (hlast : s.left = true ∨ r.eof = true ∨ nread = 0 → s.off.toNat + nread.toNat = text.length) :
    (s.copy r start nread).HasPart text := by
  have hsmall : nread.toNat < 2 ^ 31 := by
    unfold scratchPageSize at hpage
    omega
  rw [copy_of_small hsmall hpage (by omega)]
  have hoff : (s.off + nread).toNat = s.off.toNat + nread.toNat := off_add (by omega)
  refine ⟨hs.inside, by dsimp only; omega, fun i => ?_, fun hend => ?_⟩
  · dsimp only
    rw [hoff]
    split
    · next hin =>
      rw [if_pos hin.2, hbytes _ (by omega)]
      congr 1
      omega
    · next hout =>
      rw [hs.part]
      by_cases hi : i < s.off.toNat
      · rw [if_pos hi, if_pos (by omega)]
      · rw [if_neg hi, if_neg (by omega)]
  · rw [hoff]
    exact hlast hend

/-- **A round** of a handler that serves the text. -/
theorem ReadState.HasPart.body {conv : ReadConvention} (hs : s.HasPart text)
    (hgo : s.goesOn = true) (htext : text.length + procBlockSize < procReadMax)
    (hserves : conv.Serves text s r) : (s.body r).HasPart text := by
  obtain ⟨hleft, -, -, -, -⟩ := goesOn_spec hgo
  cases conv with
  | whole =>
    obtain ⟨hblock, hstart, hnread, hpage⟩ := hserves
    unfold ReadState.body
    rw [hstart]
    dsimp only
    split
    · -- the text again: the first call has returned all of it
      next hbehind =>
      rw [BitVec.le_def] at hbehind
      have hbound := hs.bound
      exact ⟨hs.inside, hbound, hs.part, fun _ => by dsimp only; omega⟩
    · next hbehind =>
      obtain ⟨hlt, hrest⟩ := toNat_rest hbehind
      refine hs.copy (by omega) ?_ (by omega) (fun i hi => ?_) fun _ => by omega
      · unfold procBlockSize at hblock
        omega
      · exact hpage _ (by omega)
  | chunk =>
    change (if s.off.toNat < text.length then _ else _) at hserves
    split at hserves
    · obtain ⟨start, hstart, hpos, hblock, hpage, hbound, heof, hbytes⟩ := hserves
      unfold ReadState.body
      rw [hstart]
      -- the chunk is the last one where the handler says so
      refine hs.copy (by omega) hpage hbound hbytes ?_
      rintro (habs | hend | hzero)
      · rw [hleft] at habs
        cases habs
      · exact heof hend
      · rw [hzero] at hpos
        exact absurd hpos (by decide)
    · next hend =>
      obtain ⟨hzero, hstart⟩ := hserves
      have hbound := hs.bound
      unfold ReadState.body
      split
      -- behind the text a handler returns 0, with or without a `start`
      · rw [if_pos (by rw [hzero, BitVec.le_def]; exact Nat.zero_le _)]
        exact ⟨hs.inside, hbound, hs.part, fun _ => by dsimp only; omega⟩
      · next start hsome =>
        have hnone : r.nread.toNat = 0 := by
          rw [hzero]
          rfl
        refine hs.copy (by omega) ?_ (by omega) (fun i hi => by omega) fun _ => by omega
        rw [hnone]
        exact hstart start hsome

theorem ReadState.HasPart.hasRead (hs : s.HasPart text)
    (htext : text.length + procBlockSize < procReadMax) (hend : s.goesOn = false) :
    s.HasRead text := by
  have hbound := hs.bound
  -- if bytes were missing, the loop would go on
  have hwhole : s.off.toNat = text.length := by
    by_contra hne
    have hopen : ¬(s.left = true ∨ s.eof = true ∨ s.nread = 0) := fun h => hne (hs.whole h)
    rw [not_or, not_or, Bool.not_eq_true, Bool.not_eq_true] at hopen
    obtain ⟨hleft, heof, hnread⟩ := hopen
    have hroom : s.off + BitVec.ofNat 32 procBlockSize < BitVec.ofNat 32 procReadMax := by
      rw [BitVec.lt_def, BitVec.toNat_add, BitVec.toNat_ofNat, BitVec.toNat_ofNat]
      unfold procBlockSize scratchPageSize procReadMax at *
      omega
    have hgo : s.goesOn = true := by
      unfold ReadState.goesOn
      rw [hleft, hs.inside, heof, decide_eq_true hnread, decide_eq_true hroom]
      rfl
    rw [hgo] at hend
    cases hend
  refine ⟨hwhole, fun i => ?_⟩
  rw [hs.part]
  split
  · rfl
  · next hi => rw [List.getElem?_eq_none (by omega)]

/-! ## Runs -/

def ReadState.rounds (s : ReadState) : Nat :=
  if s.goesOn then procReadMax - s.off.toNat + 1 else 0

/-- **One step** is safe exactly if its result is not negative, and there are fewer left. -/
theorem ReadState.Safe.step (hs : s.Safe) (hstep : ReadStep s r t) :
    (0 ≤ r.nread.toInt → t.Safe) ∧ (t.Safe → 0 ≤ r.nread.toInt) ∧ t.rounds < s.rounds := by
  obtain ⟨hgo, hvalid, rfl⟩ := hstep
  have hrounds : s.rounds = procReadMax - s.off.toNat + 1 := if_pos hgo
  by_cases hnn : 0 ≤ r.nread.toInt
  · obtain ⟨hsafe, hmoves⟩ := hs.body hgo hvalid hnn
    refine ⟨fun _ => hsafe, fun _ => hnn, ?_⟩
    rw [hrounds]
    -- either the loop ends, or the offset has moved
    unfold ReadState.rounds
    split
    · next hgo' =>
      obtain ⟨hleft, -, -, hnread, -⟩ := goesOn_spec hgo'
      have hbound := hsafe.bound
      rcases hmoves with hmoves | hmoves | hmoves
      · rw [hleft] at hmoves
        cases hmoves
      · exact absurd hmoves hnread
      · omega
    · omega
  · have hover := body_of_neg hs hvalid (Int.not_le.mp hnn)
    refine ⟨fun h => absurd h hnn, fun hsafe => ?_, ?_⟩
    · rw [hsafe.inside] at hover
      cases hover
    · have hend : (s.body r).goesOn = false := by
        by_contra hgo'
        rw [Bool.not_eq_false] at hgo'
        rw [(goesOn_spec hgo').2.1] at hover
        cases hover
      rw [hrounds, ReadState.rounds, hend, if_neg Bool.false_ne_true]
      omega

theorem safe_init : ({} : ReadState).Safe :=
  ⟨rfl, Nat.zero_le _, fun i => iff_of_false Bool.false_ne_true (Nat.not_lt_zero i)⟩

theorem hasPart_init (text : List UInt8) : ({} : ReadState).HasPart text := by
  refine ⟨rfl, Nat.zero_le _, fun i => (if_neg (Nat.not_lt_zero i)).symm, ?_⟩
  rintro (h | h | h)
  · cases h
  · cases h
  · exact absurd h (by decide)

theorem read_length_le {rs : List ReadResult} (hrun : Run ReadStep {} rs t) :
    rs.length ≤ procReadMax + 1 := by
  have hlength : rs.length + t.rounds ≤ ({} : ReadState).rounds := by
    refine hrun.length_le (I := fun s => s.Safe ∨ s.overrun = true) ?_ (.inl safe_init)
    rintro s r t (hs | hover) hstep
    · refine ⟨?_, (hs.step hstep).2.2⟩
      by_cases hnn : 0 ≤ r.nread.toInt
      · exact .inl ((hs.step hstep).1 hnn)
      · obtain ⟨-, hvalid, rfl⟩ := hstep
        exact .inr (body_of_neg hs hvalid (Int.not_le.mp hnn))
    -- behind an overrun there is no step
    · have hinside := (goesOn_spec hstep.1).2.1
      rw [hover] at hinside
      cases hinside
  have hrounds : ({} : ReadState).rounds = procReadMax + 1 := by decide
  omega

/-- **Reading a proc node** ends; it is safe exactly if the handler returns nothing negative, and a
    text that is served by either convention is in the buffer at the end. -/
theorem proc_read_iff {rs : List ReadResult} {t : ReadState} (hrun : Run ReadStep {} rs t) :
    rs.length ≤ procReadMax + 1 ∧
    (Always ReadStep ReadState.Safe {} rs ↔ ∀ r ∈ rs, 0 ≤ r.nread.toInt) ∧
    ∀ (conv : ReadConvention) (text : List UInt8), text.length + procBlockSize < procReadMax →
      Run (Guarded ReadStep fun s r => conv.Serves text s r) {} rs t → t.goesOn = false →
        t.HasRead text := by
  refine ⟨read_length_le hrun, ?_, fun conv text htext hserved hend => ?_⟩
  · have hiff : Always ReadStep ReadState.Safe {} rs ↔
        Run (Guarded ReadStep fun _ r => 0 ≤ r.nread.toInt) {} rs t := by
      apply always_iff_guarded (fun _ _ _ _ h h' => h.2.2.symm.trans h'.2.2) (I := ReadState.Safe)
      · exact fun _ hs => hs
      · exact fun s r t hs hstep => ⟨(hs.step hstep).1, (hs.step hstep).2.1⟩
      · exact hrun
      · exact safe_init
    rw [hiff]
    exact ⟨Run.guard_labels, hrun.guarded⟩
  · have hpart : t.HasPart text := by
      refine hserved.invariant (I := ReadState.HasPart text) ?_ (hasPart_init text)
      rintro s r t hs ⟨hserves, hgo, -, rfl⟩
      exact hs.body hgo htext hserves
    exact hpart.hasRead htext hend

/-- A handler that returns the text "ab" as a whole. -/
def wholeAb : ReadResult where
  page := fun i => if i = 0 then 97 else 98
  start := none
  nread := 2
  eof := false

theorem proc_read_ab : ∃ t, Run ReadStep {} [wholeAb, wholeAb] t ∧ t.HasRead [97, 98] := by
  have hvalid : wholeAb.Valid := ⟨by decide, by decide, nofun⟩
  have hserves : ∀ s, ReadConvention.whole.Serves [97, 98] s wholeAb := fun s =>
    ⟨by decide, rfl, rfl, by decide⟩
  have hrun : Run ReadStep {} [wholeAb, wholeAb] ((({} : ReadState).body wholeAb).body wholeAb) :=
    .cons ⟨rfl, hvalid, rfl⟩ (.single ⟨rfl, hvalid, rfl⟩)
  refine ⟨_, hrun, (proc_read_iff hrun).2.2 .whole [97, 98] (by decide) ?_ rfl⟩
  exact .cons ⟨hserves _, rfl, hvalid, rfl⟩ (.single ⟨hserves _, rfl, hvalid, rfl⟩)

/-- A handler that returns `-EIO`. -/
def readEio : ReadResult where
  page := fun _ => 0
  start := none
  nread := -5
  eof := false

/-- The error is the length of a copy. -/
theorem proc_read_negative : ¬Always ReadStep ReadState.Safe {} [readEio] := by
  intro halways
  have hvalid : readEio.Valid := ⟨by decide, by decide, nofun⟩
  have hsafe := halways [readEio] _ List.prefix_rfl (.single ⟨rfl, hvalid, rfl⟩)
  have hover : (({} : ReadState).body readEio).overrun = true := rfl
  rw [hsafe.inside] at hover
  cases hover

end VmkDrivers.Vmklinux
