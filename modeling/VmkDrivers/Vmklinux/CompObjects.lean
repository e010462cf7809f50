/-
  VmkDrivers.Vmklinux.CompObjects

  The completion objects of a SCSI adapter and the queues they are bound to
  (`vmklnx_setup_adapter_tls` and `vmklnx_scsi_register_ioqueue` in
  `linux_scsi_lld_if.c`, `SCSILinuxGetTLS` in `linux_scsi.c`).

  `scsi_add_host` lets the adapter have as many objects as the vmkernel says, and a driver
  registers a queue for each of them.  Two failures of the set-up leave with a success
  (`addHost_right_iff`), and the loop that binds the queues takes the remainder for the
  objects instead of the queues (`register_right_iff`).

  Of `scsi_add_host`, the steps before the set-up are one step that succeeds or fails.
-/

import Mathlib

namespace VmkDrivers.Vmklinux

/-! ## Completion objects -/

/-- `scsiLinuxTLS_t` -/
structure TlsObject where
  id : Nat
  adapterIOQueueHandle : BitVec 64 := 0
deriving DecidableEq, Repr

structure TlsHeap where
  live : Multiset Nat := 0
  next : Nat := 0

def TlsHeap.kmalloc (h : TlsHeap) : TlsHeap := { live := h.next ::ₘ h.live, next := h.next + 1 }

def TlsHeap.kfree (h : TlsHeap) (id : Nat) : TlsHeap := { h with live := h.live.erase id }

/-- Where `SCSILinuxTLSWorldletCreate` ends. -/
inductive TlsCreate where
  | noService
  | noMemory
  | noWorldlet
  | noTracker
  | created
deriving DecidableEq, Repr

def scsiLinuxTLSWorldletCreate (outcome : TlsCreate) (h : TlsHeap) : Option TlsObject × TlsHeap :=
  match outcome with
  | .noService | .noMemory => (none, h)
  | .noWorldlet | .noTracker => (none, h.kmalloc.kfree h.next)
  | .created => (some { id := h.next }, h.kmalloc)

/-- `struct vmklnx_ScsiAdapter`, as far as its completion objects go; `none` is `NULL`. -/
structure TlsAdapter where
  tls : Option (List TlsObject) := none
  numTls : Nat := 0
  vectorInfo : Bool := false
  numVec : Nat := 0
deriving DecidableEq, Repr

/-- The `VMK_ReturnStatus` of the set-up. -/
inductive TlsStatus where
  | ok
  | failure
  | noMemory
  /-- Another one of `vmk_ScsiRegisterCompObjects`. -/
  | other (code : Nat)
deriving DecidableEq, Repr

/-- What the set-up meets with: the number of objects, the outcomes of the allocations, of the
    creation of each object, and what `vmk_ScsiRegisterCompObjects` returns. -/
structure TlsEnv where
  numCompObjects : Nat
  numCompObjects_pos : 0 < numCompObjects := by decide
  tlsAlloc : Bool := true
  vInfoAlloc : Bool := true
  create : Nat → TlsCreate := fun _ => .created
  compObjectInfoAlloc : Bool := true
  registered : TlsStatus := .ok

/-! ## The set-up -/

/-- The first `k` turns of the loop that creates the objects; the flag is whether it goes on. -/
def createTls (create : Nat → TlsCreate) : (k : Nat) → TlsHeap → Bool × List TlsObject × TlsHeap
  | 0, h => (true, [], h)
  | k + 1, h =>
    match createTls create k h with
    | (false, tls, h) => (false, tls, h)
    | (true, tls, h) =>
      match scsiLinuxTLSWorldletCreate (create k) h with
      | (some o, h) => (true, tls ++ [o], h)
      | (none, h) => (false, tls, h)

/-- `tls_create_error`: the objects that are there are destroyed. -/
def destroyTls (tls : List TlsObject) (h : TlsHeap) : TlsHeap :=
  tls.foldl (fun h o => h.kfree o.id) h

def vmklnxSetupAdapterTls (env : TlsEnv) (adp : TlsAdapter) (h : TlsHeap) :
    TlsStatus × TlsAdapter × TlsHeap :=
  -- `status` is still 0 at these two
  if !env.tlsAlloc then (.ok, adp, h)
  else if !env.vInfoAlloc then (.ok, adp, h)
  else
    let adp := { adp with vectorInfo := true, numVec := 0 }
    match createTls env.create env.numCompObjects h with
    | (false, tls, h) => (.failure, { adp with vectorInfo := false }, destroyTls tls h)
    | (true, tls, h) =>
      if !env.compObjectInfoAlloc then
        (.noMemory, { adp with vectorInfo := false }, destroyTls tls h)
      else if env.registered = .ok then
        (.ok, { adp with tls := some tls, numTls := env.numCompObjects }, h)
      else (env.registered, { adp with vectorInfo := false }, destroyTls tls h)

/-- What `scsi_add_host` returns. -/
inductive AddHostError where
  | zero
  /-- The error of a step before the set-up. -/
  | before
  | setup (status : TlsStatus)
deriving DecidableEq, Repr

/-- `scsi_add_host`: what it returns, and the adapter of the host afterwards. -/
def scsiAddHost (before : Bool) (env : TlsEnv) (h : TlsHeap) :
    AddHostError × Option TlsAdapter × TlsHeap :=
  if !before then (.before, none, h)
  else
    match vmklnxSetupAdapterTls env {} h with
    | (.ok, adp, h) => (.zero, some adp, h)
    | (status, _, h) => (.setup status, none, h)

/-- What `SCSILinuxGetTLS` and the registration must not run into. -/
inductive TlsFault where
  | nullArray
  | outOfBounds
deriving DecidableEq, Repr

/-- `adp->tls[i]` -/
def TlsAdapter.tlsAt (adp : TlsAdapter) (i : Nat) : Except TlsFault TlsObject :=
  match adp.tls with
  | none => .error .nullArray
  | some tls =>
    match tls[i]? with
    | none => .error .outOfBounds
    | some o => .ok o

/-- `SCSILinuxGetTLS`, with the object that the vmkernel has chosen for the command. -/
def TlsAdapter.scsiLinuxGetTLS (adp : TlsAdapter) (chosen : Option TlsObject) :
    Except TlsFault TlsObject :=
  match chosen with
  | some o => .ok o
  | none => adp.tlsAt 0

/-! ## The queues -/

/-- `SCSILinuxTLSSetIOQueueHandle`; `none` is `VMK_EXISTS`. -/
def TlsObject.setIOQueueHandle (o : TlsObject) (qHandle : BitVec 64) : Option TlsObject :=
  if o.adapterIOQueueHandle = 0 ∨ qHandle = 0 then some { o with adapterIOQueueHandle := qHandle }
  else none

/-- The first `k` turns of the loop that binds the queues, with the places of `q_info` it reads;
    the flag is whether it goes on. -/
def bindTls (numIoQueue : Nat) (qInfo : Nat → BitVec 64) :
    (k : Nat) → List TlsObject → Except TlsFault (Bool × List TlsObject × List Nat)
  | 0, tls => .ok (true, tls, [])
  | k + 1, tls =>
    match bindTls numIoQueue qInfo k tls with
    | .error e => .error e
    | .ok (false, tls, reads) => .ok (false, tls, reads)
    | .ok (true, tls, reads) =>
      match tls[k % numIoQueue]? with
      | none => .error .outOfBounds
      | some o =>
        match o.setIOQueueHandle (qInfo k) with
        | some o => .ok (true, tls.set (k % numIoQueue) o, reads ++ [k])
        | none => .ok (false, tls, reads ++ [k])

/-- `registeration_error`: the first `k` turns of the loop that takes the handles away. -/
def unbindTls (numIoQueue : Nat) : (k : Nat) → List TlsObject → List TlsObject
  | 0, tls => tls
  | k + 1, tls =>
    (unbindTls numIoQueue k tls).modify (k % numIoQueue) fun o =>
      { o with adapterIOQueueHandle := 0 }

/-- What `vmklnx_scsi_register_ioqueue` returns. -/
inductive IoqueueStatus where
  | ok
  | badParam
  | exists
  | failure
deriving DecidableEq, Repr

/-- `vmklnx_scsi_register_ioqueue`, with the places of `q_info` it reads. -/
def TlsAdapter.registerIoqueue (adp : TlsAdapter) (numIoQueue : Nat) (qInfo : Nat → BitVec 64) :
    Except TlsFault (IoqueueStatus × TlsAdapter × List Nat) :=
  if numIoQueue ≤ 1 then .ok (.badParam, adp, [])
  else if adp.numTls < numIoQueue then .ok (.badParam, adp, [])
  else if 1 < adp.numVec then .ok (.exists, adp, [])
  else
    match adp.tls with
    | none => .error .nullArray
    | some tls =>
      match bindTls numIoQueue qInfo adp.numTls tls with
      | .error e => .error e
      | .ok (true, tls, reads) => .ok (.ok, { adp with tls := some tls }, reads)
      | .ok (false, tls, reads) =>
        .ok (.failure, { adp with tls := some (unbindTls numIoQueue adp.numTls tls) }, reads)

/-! ## Creation -/

variable {create : Nat → TlsCreate} {env : TlsEnv} {tls tls' : List TlsObject} {h h' : TlsHeap}
  {o : TlsObject} {ok : Bool}

def tlsIds (tls : List TlsObject) : Multiset Nat := (tls.map (·.id) : List Nat)

theorem tlsIds_append (o : TlsObject) : tlsIds (tls ++ [o]) = o.id ::ₘ tlsIds tls := by
  rw [tlsIds, List.map_append, List.map_cons, List.map_nil, ← Multiset.coe_add, Multiset.add_comm]
  rfl

theorem create_none {outcome : TlsCreate} (hc : scsiLinuxTLSWorldletCreate outcome h = (none, h')) :
    h'.live = h.live := by
  cases outcome with
  | noService | noMemory =>
    obtain rfl := (Prod.mk.inj hc).2
    rfl
  | noWorldlet | noTracker =>
    obtain rfl := (Prod.mk.inj hc).2
    exact Multiset.erase_cons_head _ _
  | created => cases (Prod.mk.inj hc).1

theorem create_some {outcome : TlsCreate}
    (hc : scsiLinuxTLSWorldletCreate outcome h = (some o, h')) :
    o = { id := h.next } ∧ h' = h.kmalloc := by
  cases outcome with
  | created =>
    obtain ⟨ho, rfl⟩ := Prod.mk.inj hc
    exact ⟨(Option.some.inj ho).symm, rfl⟩
  | _ => cases (Prod.mk.inj hc).1

/-- **The loop** has allocated the objects of the array, and no others. -/
theorem createTls_spec {k : Nat} (hc : createTls create k h = (ok, tls, h')) :
    h'.live = tlsIds tls + h.live ∧ (ok = true → tls.length = k) ∧
      ∀ o ∈ tls, o.adapterIOQueueHandle = 0 := by
  induction k generalizing ok tls h' with
  | zero =>
    obtain ⟨rfl, hrest⟩ := Prod.mk.inj hc
    cases hrest
    exact ⟨(Multiset.zero_add _).symm, fun _ => rfl, nofun⟩
  | succ k ih =>
    rw [createTls] at hc
    split at hc
    · next tls₁ h₁ hk =>
      obtain ⟨rfl, hrest⟩ := Prod.mk.inj hc
      cases hrest
      obtain ⟨hlive, -, hnull⟩ := ih hk
      exact ⟨hlive, nofun, hnull⟩
    · next tls₁ h₁ hk =>
      obtain ⟨hlive, hlength, hnull⟩ := ih hk
      split at hc
      · next o h₂ hcreate =>
        obtain ⟨rfl, hrest⟩ := Prod.mk.inj hc
        cases hrest
        obtain ⟨rfl, rfl⟩ := create_some hcreate
        refine ⟨?_, fun _ => ?_, ?_⟩
        · rw [tlsIds_append, Multiset.cons_add, ← hlive]
          rfl
        · rw [List.length_append, hlength rfl]
          rfl
        · intro o ho
          rcases List.mem_append.mp ho with hin | hlast
          · exact hnull o hin
          · rw [List.mem_singleton.mp hlast]
      · next h₂ hcreate =>
        obtain ⟨rfl, hrest⟩ := Prod.mk.inj hc
        cases hrest
        exact ⟨(create_none hcreate).trans hlive, nofun, hnull⟩

theorem destroyTls_live {live : Multiset Nat} (hh : h.live = tlsIds tls + live) :
    (destroyTls tls h).live = live := by
  induction tls generalizing h with
  | nil => exact hh.trans (Multiset.zero_add _)
  | cons o tls ih =>
    refine ih (h := h.kfree o.id) ?_
    have hcons : h.live = o.id ::ₘ (tlsIds tls + live) := by
      rw [hh, ← Multiset.cons_add]
      rfl
    rw [TlsHeap.kfree, hcons, Multiset.erase_cons_head]

/-! ## The adapter of a new host -/

def TlsAdapter.Unbound (adp : TlsAdapter) : Prop :=
  ∃ tls, adp.tls = some tls ∧ tls.length = adp.numTls ∧ ∀ o ∈ tls, o.adapterIOQueueHandle = 0

/-- **The claim about `scsi_add_host`**: with 0 the adapter has all of its objects, they are the
    ones that are allocated, and a command gets one; otherwise none of them is left. -/
def AddHostRight (before : Bool) (env : TlsEnv) (h : TlsHeap) : Prop :=
  match scsiAddHost before env h with
  | (.zero, adapter, h') =>
    ∃ adp tls, adapter = some adp ∧ adp.tls = some tls ∧ adp.Unbound ∧
      adp.numTls = env.numCompObjects ∧ h'.live = tlsIds tls + h.live ∧
      ∀ chosen, ∃ o, adp.scsiLinuxGetTLS chosen = .ok o
  | (_, _, h') => h'.live = h.live

theorem getTLS_ok {adp : TlsAdapter} (htls : adp.tls = some tls) (hpos : 0 < tls.length)
    (chosen : Option TlsObject) : ∃ o, adp.scsiLinuxGetTLS chosen = .ok o := by
  cases chosen with
  | some o => exact ⟨o, rfl⟩
  | none =>
    refine ⟨tls[0], ?_⟩
    rw [TlsAdapter.scsiLinuxGetTLS, TlsAdapter.tlsAt, htls]
    dsimp only
    rw [List.getElem?_eq_getElem hpos]

theorem addHost_right_of_alloc (htls : env.tlsAlloc = true) (hvInfo : env.vInfoAlloc = true)
    (h : TlsHeap) : AddHostRight true env h := by
  unfold AddHostRight scsiAddHost vmklnxSetupAdapterTls
  rw [if_neg (by decide), htls, hvInfo, if_neg (by decide), if_neg (by decide)]
  rcases hc : createTls env.create env.numCompObjects h with ⟨ok, tls, h'⟩
  obtain ⟨hlive, hlength, hnull⟩ := createTls_spec hc
  cases ok with
  | false => exact destroyTls_live hlive
  | true =>
    cases env.compObjectInfoAlloc with
    | false => exact destroyTls_live hlive
    | true =>
      cases env.registered with
      | ok =>
        have hpos : 0 < tls.length := (hlength rfl).symm ▸ env.numCompObjects_pos
        have hunbound : TlsAdapter.Unbound ⟨some tls, env.numCompObjects, true, 0⟩ :=
          ⟨tls, rfl, hlength rfl, hnull⟩
        exact ⟨_, tls, rfl, rfl, hunbound, rfl, hlive, getTLS_ok rfl hpos⟩
      | failure | noMemory | other => exact destroyTls_live hlive

/-- **Adding a host** is right exactly if there is memory for the two arrays, where it gets
    that far. -/
theorem addHost_right_iff (before : Bool) (env : TlsEnv) (h : TlsHeap) :
    AddHostRight before env h ↔
      (before = true → env.tlsAlloc = true ∧ env.vInfoAlloc = true) := by
  cases before with
  | false => exact iff_of_true rfl nofun
  | true =>
    constructor
    · intro hright _
      by_contra hfailed
      have hsetup : vmklnxSetupAdapterTls env {} h = (.ok, {}, h) := by
        unfold vmklnxSetupAdapterTls
        cases htls : env.tlsAlloc with
        | false => rfl
        | true =>
          cases hvInfo : env.vInfoAlloc with
          | false => rfl
          | true => exact absurd ⟨htls, hvInfo⟩ hfailed
      unfold AddHostRight scsiAddHost at hright
      rw [if_neg (by decide), hsetup] at hright
      -- 0 is returned, and the adapter has no array
      obtain ⟨adp, tls, hadp, htls, -⟩ := hright
      cases hadp
      cases htls
    · intro halloc
      exact addHost_right_of_alloc (halloc rfl).1 (halloc rfl).2 h

/-! ## Binding -/

variable {adp : TlsAdapter} {numIoQueue k : Nat} {qInfo : Nat → BitVec 64}

/-- **The claim about `vmklnx_scsi_register_ioqueue`**: it reads its queues only, returns
    `VMK_OK`, and gives each object one of them, so that each is used. -/
def RegisterRight (adp : TlsAdapter) (numIoQueue : Nat) (qInfo : Nat → BitVec 64) : Prop :=
  ∃ adp' reads, adp.registerIoqueue numIoQueue qInfo = .ok (.ok, adp', reads) ∧
    (∀ i ∈ reads, i < numIoQueue) ∧
    ∃ queue : Nat → Nat,
      (∀ i < adp.numTls, queue i < numIoQueue ∧
        ∃ o, adp'.tlsAt i = .ok o ∧ o.adapterIOQueueHandle = qInfo (queue i)) ∧
      ∀ q < numIoQueue, ∃ i < adp.numTls, queue i = q

/-- The first `k` objects have the first `k` queues. -/
def boundTls (qInfo : Nat → BitVec 64) (k : Nat) (tls : List TlsObject) : List TlsObject :=
  tls.mapIdx fun i o => if i < k then { o with adapterIOQueueHandle := qInfo i } else o

theorem getElem?_boundTls (i : Nat) : (boundTls qInfo k tls)[i]? = tls[i]?.map fun o =>
    if i < k then { o with adapterIOQueueHandle := qInfo i } else o := List.getElem?_mapIdx

theorem boundTls_succ (ho : tls[k]? = some o) :
    (boundTls qInfo k tls).set k { o with adapterIOQueueHandle := qInfo k } =
      boundTls qInfo (k + 1) tls := by
  apply List.ext_getElem?
  intro i
  rw [List.getElem?_set, getElem?_boundTls, getElem?_boundTls]
  by_cases hik : k = i
  · subst hik
    have hlt : k < (boundTls qInfo k tls).length := by
      rw [boundTls, List.length_mapIdx]
      exact (List.getElem?_eq_some_iff.mp ho).1
    rw [if_pos rfl, if_pos hlt, ho, Option.map_some, if_pos (Nat.lt_succ_self k)]
  · rw [if_neg hik]
    have hsame : i < k + 1 ↔ i < k := by omega
    simp only [hsame]

theorem bindTls_spec (hnull : ∀ o ∈ tls, o.adapterIOQueueHandle = 0)
    (hlen : numIoQueue ≤ tls.length) (hk : k ≤ numIoQueue) :
    bindTls numIoQueue qInfo k tls = .ok (true, boundTls qInfo k tls, List.range k) := by
  induction k with
  | zero =>
    have hsame : boundTls qInfo 0 tls = tls := by
      apply List.ext_getElem?
      intro i
      simp [getElem?_boundTls]
    rw [bindTls, hsame, List.range_zero]
  | succ k ih =>
    have hin : k < tls.length := by omega
    have ho := List.getElem?_eq_getElem hin
    have hat : (boundTls qInfo k tls)[k]? = some tls[k] := by
      rw [getElem?_boundTls, ho, Option.map_some, if_neg (Nat.lt_irrefl k)]
    have hset : tls[k].setIOQueueHandle (qInfo k) =
        some { tls[k] with adapterIOQueueHandle := qInfo k } :=
      if_pos (.inl (hnull _ (List.getElem_mem hin)))
    rw [bindTls, ih (by omega)]
    dsimp only
    rw [Nat.mod_eq_of_lt hk, hat]
    dsimp only
    rw [hset]
    dsimp only
    rw [boundTls_succ ho, ← List.range_succ]

theorem bindTls_reads {reads : List Nat}
    (h : bindTls numIoQueue qInfo (k + 1) tls = .ok (ok, tls', reads)) :
    ∃ ok₀ tls₀ reads₀, bindTls numIoQueue qInfo k tls = .ok (ok₀, tls₀, reads₀) ∧
      reads₀ ⊆ reads := by
  rw [bindTls] at h
  split at h
  · cases h
  · next tls₀ reads₀ hk =>
    cases h
    exact ⟨_, _, _, hk, List.Subset.refl _⟩
  · next tls₀ reads₀ hk =>
    refine ⟨_, _, _, hk, ?_⟩
    split at h
    · cases h
    · split at h <;> cases h <;> exact List.subset_append_left _ _

theorem bindTls_reads_behind (hnull : ∀ o ∈ tls, o.adapterIOQueueHandle = 0)
    (hlt : numIoQueue < tls.length) (hk : numIoQueue < k) {reads : List Nat}
    (h : bindTls numIoQueue qInfo k tls = .ok (ok, tls', reads)) : numIoQueue ∈ reads := by
  induction k, hk using Nat.le_induction generalizing ok tls' reads with
  | base =>
    rw [bindTls, bindTls_spec hnull hlt.le le_rfl] at h
    dsimp only at h
    split at h
    · cases h
    · split at h <;> cases h <;> exact List.mem_append_right _ List.mem_cons_self
  | succ k _ ih =>
    obtain ⟨_, _, _, hbefore, hsub⟩ := bindTls_reads h
    exact hsub (ih hbefore)

/-- **Registering queues** is right exactly if there are as many as objects, and no vectors yet. -/
theorem register_right_iff (hadp : adp.Unbound) (hmin : 2 ≤ numIoQueue)
    (hmax : numIoQueue ≤ adp.numTls) (qInfo : Nat → BitVec 64) :
    RegisterRight adp numIoQueue qInfo ↔ numIoQueue = adp.numTls ∧ adp.numVec ≤ 1 := by
  obtain ⟨tls, htls, hlength, hnull⟩ := hadp
  have hregister : adp.numVec ≤ 1 → adp.registerIoqueue numIoQueue qInfo =
      match bindTls numIoQueue qInfo adp.numTls tls with
      | .error e => .error e
      | .ok (true, tls, reads) => .ok (.ok, { adp with tls := some tls }, reads)
      | .ok (false, tls, reads) =>
        let tls := unbindTls numIoQueue adp.numTls tls
        .ok (.failure, { adp with tls := some tls }, reads) := by
    intro hvec
    rw [TlsAdapter.registerIoqueue, if_neg (by omega), if_neg (by omega), if_neg (by omega), htls]
  constructor
  · rintro ⟨adp', reads, hreg, hreads, -⟩
    have hvec : adp.numVec ≤ 1 := by
      by_contra hmore
      rw [TlsAdapter.registerIoqueue, if_neg (by omega), if_neg (by omega),
        if_pos (by omega)] at hreg
      cases hreg
    refine ⟨?_, hvec⟩
    by_contra hne
    rw [hregister hvec] at hreg
    split at hreg
    · cases hreg
    · next tls₁ reads₁ hbind =>
      cases hreg
      have hbehind := bindTls_reads_behind hnull (by omega) (by omega) hbind
      exact absurd (hreads _ hbehind) (Nat.lt_irrefl _)
    · cases hreg
  · rintro ⟨rfl, hvec⟩
    rw [RegisterRight, hregister hvec, bindTls_spec hnull hlength.ge le_rfl]
    refine ⟨_, _, rfl, fun i hi => List.mem_range.mp hi, id, fun i hi => ⟨hi, ?_⟩,
      fun q hq => ⟨q, hq, rfl⟩⟩
    have hin : i < tls.length := hlength.symm ▸ hi
    refine ⟨{ tls[i] with adapterIOQueueHandle := qInfo i }, ?_, rfl⟩
    rw [TlsAdapter.tlsAt]
    dsimp only
    rw [getElem?_boundTls, List.getElem?_eq_getElem hin, Option.map_some, if_pos hi]

/-- **Completion objects** are usable and bound exactly if there is memory for the two arrays of
    the set-up, and there are as many queues as objects and no vectors yet. -/
theorem comp_objects_iff (before : Bool) (env : TlsEnv) (h : TlsHeap) (hadp : adp.Unbound)
    (hmin : 2 ≤ numIoQueue) (hmax : numIoQueue ≤ adp.numTls) (qInfo : Nat → BitVec 64) :
    (AddHostRight before env h ↔ (before = true → env.tlsAlloc = true ∧ env.vInfoAlloc = true)) ∧
      (RegisterRight adp numIoQueue qInfo ↔ numIoQueue = adp.numTls ∧ adp.numVec ≤ 1) :=
  ⟨addHost_right_iff before env h, register_right_iff hadp hmin hmax qInfo⟩

/-- An adapter with `n` objects. -/
def adapterWith (n : Nat) : TlsAdapter where
  tls := some ((List.range n).map fun id => { id })
  numTls := n
  vectorInfo := true

theorem unbound_adapterWith (n : Nat) : (adapterWith n).Unbound := by
  refine ⟨_, rfl, ?_, ?_⟩
  · rw [List.length_map, List.length_range]
    rfl
  · intro o ho
    obtain ⟨id, -, rfl⟩ := List.mem_map.mp ho
    rfl

theorem comp_objects_four :
    AddHostRight true { numCompObjects := 4 } {} ∧
      RegisterRight (adapterWith 4) 4 fun i => .ofNat 64 (i + 1) := by
  obtain ⟨hadd, hregister⟩ := comp_objects_iff true { numCompObjects := 4 } {}
    (unbound_adapterWith 4) (by decide) (Nat.le_refl 4) fun i => .ofNat 64 (i + 1)
  exact ⟨hadd.mpr fun _ => ⟨rfl, rfl⟩, hregister.mpr ⟨rfl, by decide⟩⟩

/-- Without memory for the array of objects the host is added, and has none.  With two queues for
    four objects the loop reads behind `q_info`, and takes the handles away again. -/
theorem comp_objects_wrong :
    ¬AddHostRight true { numCompObjects := 4, tlsAlloc := false } {} ∧
      ¬RegisterRight (adapterWith 4) 2 fun i => .ofNat 64 (i + 1) := by
  refine ⟨?_, ?_⟩
  · rintro ⟨adp, tls, hadp, htls, -⟩
    cases hadp
    cases htls
  · rintro ⟨adp', reads, hreg, -⟩
    cases hreg

end VmkDrivers.Vmklinux
