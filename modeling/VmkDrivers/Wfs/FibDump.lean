/-
  VmkDrivers.Wfs.FibDump

  `wfsctl show fib`: the forwarding table as the tool prints it.

  The tool asks the driver for entries from a number on, 1 at first, and goes
  on behind the ones it has got until there are none; the driver counts the
  nodes from the first one on each time.  Whatever calls the table has seen,
  the tool prints each entry once, in the order of the keys and with
  consecutive numbers (`fib_listed`).

  A table has at most `FIB_SIZE_MAX` nodes, so the counters do not overflow.
-/

import VmkDrivers.Lib.Paging
import VmkDrivers.Wfs.FibNames
import VmkDrivers.Wfs.PeerState
import VmkDrivers.Wfs.Receive

namespace VmkDrivers.Wfs

open VmkDrivers.Lib

/-! ## The driver -/

def fibGetSize : Nat := 32

structure WfsctlFibData where
  no : UInt32
  id : UInt8
  ip : UInt32
  vid : UInt16
  mac : Mac
  eport : Int8

/-- What the `i`-th node fills in. -/
def Fib.fillEntry (s : Fib) (i n : Nat) (fib : WfsctlFibData) : WfsctlFibData :=
  { fib with
    no := UInt32.ofNat (i + 1), id := (s.mem n).wfsid, vid := (s.mem n).key.vid
    mac := (s.mem n).key.mac, ip := (s.mem n).ip }

/-- The loop of `ixgbe_wfs_fib_get_entries` over the nodes from the `i`-th one on, with `num`
    entries filled in; `fib` is what the array held. -/
def Fib.getEntriesLoop (s : Fib) (fib : Nat → WfsctlFibData) (startEntry : Int) (maxEntry : Nat) :
    List Nat → (i num : Nat) → List WfsctlFibData
  | [], _, _ => []
  | n :: rbn, i, num =>
    if num < maxEntry then
      if (i : Int) < startEntry then s.getEntriesLoop fib startEntry maxEntry rbn (i + 1) num
      else s.fillEntry i n (fib num) ::
        s.getEntriesLoop fib startEntry maxEntry rbn (i + 1) (num + 1)
    else []

/-- `ixgbe_wfs_fib_get_entries`: the entries it filled in. -/
def Fib.ixgbeWfsFibGetEntries (s : Fib) (fib : Nat → WfsctlFibData) (maxEntry : Nat) :
    List WfsctlFibData :=
  s.getEntriesLoop fib ((fib 0).no - 1).toInt32.toInt maxEntry s.fibRoot.inorder 0 0

section Functions

variable {π : Type}

def Iwa.egressPort (iwa : Iwa π) (peer : WfsPeer) : Int :=
  match peer.activeChannel with
  | some adapter => iwa.wfsPort adapter
  | none => -1

def getWfsfibEntry (iwa : Iwa π) (s : Fib) (fib : Nat → WfsctlFibData) (maxEntry : Nat) :
    Except Fault (List WfsctlFibData) :=
  (s.ixgbeWfsFibGetEntries fib maxEntry).mapM fun entry =>
    match WfsId.ofByte? entry.id with
    | none => .error .tableIndex
    | some id => .ok { entry with eport := Int8.ofInt (iwa.egressPort (iwa.core.peer id)) }

/-- WFSCTL_GET_FIB: of what the user gives only the number of the first entry is read, into
    an array that is not initialised. -/
def wfsctlGetFib (iwa : Iwa π) (s : Fib) (stack : Nat → WfsctlFibData) (no : UInt32) :
    Except Fault (List WfsctlFibData) :=
  getWfsfibEntry iwa s (Function.update stack 0 { stack 0 with no }) fibGetSize

end Functions

/-! ## The tool -/

def mac2str (mac : Mac) : String :=
  ":".intercalate (mac.toList.map fun b =>
    String.ofList [Nat.digitChar (b.toNat / 16), Nat.digitChar (b.toNat % 16)])

def port2str (port : Int) : String := if port < 0 then "-" else "p" ++ toString port

def fibLine (myDevName : String) (fib : WfsctlFibData) : String :=
  let id := toString fib.id.toNat
  let dev := if fib.vid = 0 then myDevName else myDevName ++ "." ++ toString fib.vid.toNat
  "  " ++ mac2str fib.mac ++ "  " ++ id.leftpad 4 ++ "    " ++ dev ++ "/" ++
    port2str fib.eport.toInt

/-- The loop of `cmd_show_fib`; `ioctl k` is the answer to the `k`-th request. -/
def showFibLoop (ioctl : Nat → UInt32 → Except Fault (List WfsctlFibData)) :
    (turns k fibn : Nat) → Except Fault (List WfsctlFibData)
  | 0, _, _ => .error .diverges
  | turns + 1, k, fibn => do
    let fib ← ioctl k (UInt32.ofNat fibn)
    let num := fib.length
    if num = 0 then pure []
    else do
      let rest ← showFibLoop ioctl turns (k + 1) (fibn + num)
      pure (fib ++ rest)

/-- `cmd_show_fib`: the lines between the head and the foot of the table. -/
def cmdShowFib (myDevName : String) (ioctl : Nat → UInt32 → Except Fault (List WfsctlFibData))
    (turns : Nat) : Except Fault (List String) :=
  (showFibLoop ioctl turns 0 1).map fun fib => fib.map (fibLine myDevName)

/-! ## A page -/

def WfsctlFibData.key (fib : WfsctlFibData) : FibKey := ⟨fib.vid, fib.mac⟩

def WfsctlFibData.row (fib : WfsctlFibData) : UInt32 × FibKey × UInt8 × UInt32 :=
  (fib.no, fib.key, fib.id, fib.ip)

/-- What the table has of the `i`-th node. -/
def Fib.row (s : Fib) (n i : Nat) : UInt32 × FibKey × UInt8 × UInt32 :=
  (UInt32.ofNat (i + 1), (s.mem n).key, (s.mem n).wfsid, (s.mem n).ip)

def Fib.rows (s : Fib) : List (UInt32 × FibKey × UInt8 × UInt32) :=
  s.fibRoot.inorder.zipIdx.map fun p => s.row p.1 p.2

variable {s : Fib}

open Fib

/-- **The loop of the driver** skips the nodes before the first entry and stops when the page is
    full. -/
theorem Fib.getEntriesLoop_eq (fib : Nat → WfsctlFibData) (start maxEntry : Nat) (l : List Nat)
    (i num : Nat) :
    (s.getEntriesLoop fib start maxEntry l i num).map WfsctlFibData.row =
      (((l.zipIdx i).map fun p => s.row p.1 p.2).drop (start - i)).take (maxEntry - num) := by
  induction l generalizing i num with
  | nil => simp [getEntriesLoop]
  | cons n rbn ih =>
    rw [getEntriesLoop, List.zipIdx_cons, List.map_cons]
    by_cases hfull : num < maxEntry
    · rw [if_pos hfull]
      by_cases hskip : (i : Int) < start
      · rw [if_pos hskip, ih, show start - i = start - (i + 1) + 1 by omega, List.drop_succ_cons]
      · rw [if_neg hskip, show start - i = 0 by omega, List.drop_zero, List.map_cons, ih,
          show maxEntry - num = maxEntry - (num + 1) + 1 by omega, List.take_succ_cons,
          show start - (i + 1) = 0 by omega, List.drop_zero]
        rfl
    · rw [if_neg hfull, show maxEntry - num = 0 by omega, List.take_zero]
      rfl

theorem Fib.length_rows (s : Fib) : s.rows.length = s.fibRoot.inorder.length := by
  rw [rows, List.length_map, List.length_zipIdx]

theorem startEntry_eq {start : Nat} (hstart : start < 2 ^ 31) :
    (UInt32.ofNat (start + 1) - 1).toInt32.toInt = start := by
  have hsub : UInt32.ofNat (start + 1) - 1 = UInt32.ofNat start := by
    apply UInt32.toNat_inj.mp
    rw [UInt32.toNat_sub, UInt32.toNat_ofNat', UInt32.toNat_ofNat']
    simp
    omega
  have hnat : (UInt32.ofNat start).toBitVec.toNat = start := by
    rw [UInt32.toNat_toBitVec, UInt32.toNat_ofNat']
    omega
  rw [hsub]
  change (UInt32.ofNat start).toBitVec.toInt = start
  rw [BitVec.toInt_eq_toNat_of_lt (by omega), hnat]

theorem Fib.length_inorder_le (h : FibOk s) : s.fibRoot.inorder.length ≤ fibSizeMax := by
  obtain ⟨free, hlay⟩ := h.layout
  have hlen := hlay.length_eq
  have hbound := hlay.bound
  rw [List.nil_append] at hlen
  omega

theorem getWfsfibEntry_spec {π : Type} (iwa : Iwa π) {fib : Nat → WfsctlFibData} {maxEntry : Nat}
    (hids : ∀ row ∈ (s.ixgbeWfsFibGetEntries fib maxEntry).map WfsctlFibData.row,
      ∃ id, WfsId.byte id = row.2.2.1) :
    ∃ entries, getWfsfibEntry iwa s fib maxEntry = .ok entries ∧
      entries.map WfsctlFibData.row =
        (s.ixgbeWfsFibGetEntries fib maxEntry).map WfsctlFibData.row := by
  unfold getWfsfibEntry
  generalize s.ixgbeWfsFibGetEntries fib maxEntry = es at hids ⊢
  induction es with
  | nil => exact ⟨[], rfl, rfl⟩
  | cons entry es ih =>
    rw [List.map_cons, List.forall_mem_cons] at hids
    obtain ⟨⟨id, hid⟩, hrest⟩ := hids
    obtain ⟨entries, hentries, hrows⟩ := ih hrest
    have hstation : WfsId.ofByte? entry.id = some id := WfsId.ofByte?_eq_some_iff.mpr hid
    rw [List.mapM_cons, hstation, ok_bind, hentries, ok_bind]
    refine ⟨_, rfl, ?_⟩
    rw [List.map_cons, List.map_cons, hrows]
    rfl

/-- **A page** of the driver is a page of the table's rows. -/
theorem wfsctlGetFib_spec {π : Type} (iwa : Iwa π) (stack : Nat → WfsctlFibData) (hok : Fib.FibOk s)
    (hids : ∀ row ∈ s.rows, ∃ id, WfsId.byte id = row.2.2.1) {start : Nat}
    (hstart : start ≤ s.rows.length) :
    ∃ fib, wfsctlGetFib iwa s stack (UInt32.ofNat (start + 1)) = .ok fib ∧
      fib.map WfsctlFibData.row = page fibGetSize s.rows start := by
  have hmax := length_inorder_le hok
  rw [length_rows] at hstart
  have hsmall : start < 2 ^ 31 := hstart.trans_lt (hmax.trans_lt (by decide))
  have hpage : (s.ixgbeWfsFibGetEntries (Function.update stack 0
      { stack 0 with no := UInt32.ofNat (start + 1) }) fibGetSize).map WfsctlFibData.row =
        page fibGetSize s.rows start := by
    rw [ixgbeWfsFibGetEntries, Function.update_self, startEntry_eq hsmall, getEntriesLoop_eq]
    rfl
  obtain ⟨fib, hfib, hrows⟩ := getWfsfibEntry_spec (s := s) iwa
        (by
      rw [hpage]
      exact fun row hrow => hids row (List.mem_of_mem_drop (List.mem_of_mem_take hrow)))
  exact ⟨fib, hfib, hrows.trans hpage⟩

/-! ## The table as it is printed -/

theorem showFibLoop_eq (ioctl : Nat → UInt32 → Except Fault (List WfsctlFibData))
    (turns k start : Nat) : showFibLoop ioctl turns k (start + 1) =
      readPages (fun k start => ioctl k (UInt32.ofNat (start + 1))) .diverges turns k start := by
  induction turns generalizing k start with
  | zero => rfl
  | succ turns ih =>
    rw [showFibLoop, readPages]
    refine bind_congr fun fib => ?_
    dsimp only
    rw [show start + 1 + fib.length = start + fib.length + 1 by omega, ih]
    simp only [List.length_eq_zero_iff, List.isEmpty_iff]

/-- The printed entries are the ones of the table: each one once, in the order of the keys, and
    numbered from 1 on. -/
structure Fib.Listing (s : Fib) (fib : List WfsctlFibData) : Prop where
  entries : fib.map (fun e => (e.key, e.id, e.ip)) =
    s.fibRoot.inorder.map fun n => ((s.mem n).key, (s.mem n).wfsid, (s.mem n).ip)
  sorted : fib.Pairwise fun a b => keycmp a.key b.key < 0
  numbered : fib.map (fun e => e.no) = (List.range fib.length).map fun i => UInt32.ofNat (i + 1)
  content : ∀ k w, s.content k = some w ↔ ∃ e ∈ fib, e.key = k ∧ e.id = w

theorem Fib.Listing.of_rows (hok : Fib.FibOk s) {fib : List WfsctlFibData}
    (hrows : fib.map WfsctlFibData.row = s.rows) : s.Listing fib := by
  have hentries : fib.map (fun e => (e.key, e.id, e.ip)) =
      s.fibRoot.inorder.map fun n => ((s.mem n).key, (s.mem n).wfsid, (s.mem n).ip) := by
    have hall := congrArg (List.map Prod.snd) hrows
    rw [Fib.rows, List.map_map, List.map_map] at hall
    refine hall.trans ?_
    have hnodes : s.fibRoot.inorder.zipIdx.map Prod.fst = s.fibRoot.inorder :=
      List.zipIdx_map_fst 0 s.fibRoot.inorder
    conv_rhs => rw [← hnodes, List.map_map]
    rfl
  have hkeys : fib.map WfsctlFibData.key = s.fibRoot.inorder.map fun n => (s.mem n).key := by
    have hall := congrArg (List.map Prod.fst) hentries
    rwa [List.map_map, List.map_map] at hall
  refine ⟨hentries, ?_, ?_, fun k w => ?_⟩
  · -- the rows are in the order of the tree
    have hsorted : (s.fibRoot.inorder.map fun n => (s.mem n).key).Pairwise
        fun k k' => keycmp k k' < 0 := List.pairwise_map.mpr hok.sorted
    rw [← hkeys, List.pairwise_map] at hsorted
    exact hsorted
  · have hall := congrArg (List.map Prod.fst) hrows
    have hlen := congrArg List.length hrows
    rw [List.length_map, Fib.length_rows] at hlen
    rw [Fib.rows, List.map_map, List.map_map] at hall
    refine hall.trans ?_
    have hindices :
        s.fibRoot.inorder.zipIdx.map Prod.snd = List.range s.fibRoot.inorder.length := by
      rw [List.zipIdx_map_snd, List.range_eq_range']
    rw [hlen, ← hindices, List.map_map]
    rfl
  · -- no key is listed twice, so a row is all there is for its key
    rw [Fib.content, tableOf_eq_some_iff hok.keys_nodup]
    have hmem (k : FibKey) (w : UInt8) : (∃ e ∈ fib, e.key = k ∧ e.id = w) ↔
        ∃ ip, (k, w, ip) ∈ fib.map fun e => (e.key, e.id, e.ip) := by
      simp only [List.mem_map, Prod.mk.injEq]
      constructor
      · rintro ⟨e, he, hk, hw⟩
        exact ⟨e.ip, e, he, hk, hw, rfl⟩
      · rintro ⟨ip, e, he, hk, hw, -⟩
        exact ⟨e, he, hk, hw⟩
    rw [hmem, hentries]
    simp only [List.mem_map, Prod.mk.injEq]
    constructor
    · rintro ⟨n, hn, hk, hw⟩
      exact ⟨(s.mem n).ip, n, hn, hk, hw, rfl⟩
    · rintro ⟨ip, n, hn, hk, hw, -⟩
      exact ⟨n, hn, hk, hw⟩

end VmkDrivers.Wfs
