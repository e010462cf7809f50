/-
  VmkDrivers.Vmklinux.NetRegister

  The registration of a network device (`register_netdev` and `register_netdevice` in
  `linux_net.c`).

  The registration acquires an output list for each queue, a net poll, a place on a device
  list, a reference, and for a pseudo device the uplink.  None of the labels of
  `register_netdevice` gives the output lists back.  `register_netdev` unwinds by an
  unregistration, which leaves the uplink: still registered if the character device fails,
  and as a pointer to what is gone if it cannot be opened (`register_all_or_nothing_iff`).

  The calls of the driver's `init` and `uninit`, the waiting for references, and what ties a
  poll to the uplink are left out.
-/

import Mathlib

namespace VmkDrivers.Vmklinux

/-! ## Devices -/

/-- `softq->outputList`: with its memory, or pointing to memory that was freed. -/
inductive OutputList
  | unset
  | live
  | freed
deriving DecidableEq, Repr

/-- `dev->uplinkDev` -/
inductive UplinkDev
  | null
  | connected
  | stale
deriving DecidableEq, Repr

/-- `dev->reg_state` -/
inductive RegState
  | uninitialized
  | earlyNapiAddFailed
  | registered
  | unregistered
deriving DecidableEq, Repr

/-- A context on `napi_list`, with a net poll of its own or the one of the device. -/
structure NapiContext where
  id : Nat
  own : Bool
deriving DecidableEq, Repr

structure NetReg where
  regState : RegState
  /-- The output lists of the transmit queues. -/
  lists : List OutputList
  /-- Output lists that were overwritten while they had memory. -/
  lost : Nat
  netPoll : Bool
  napi : List NapiContext
  devBase : List Nat
  /-- `linuxCNAAdapterList` -/
  cnaList : List Nat
  refcnt : Nat
  uplink : UplinkDev
  opened : Bool
  /-- Something was released that was not there. -/
  fault : Bool
deriving DecidableEq, Repr

/-- `NETIF_F_CNA`, and `dev->pdev` for a device on the PCI bus. -/
structure RegConfig where
  dev : Nat
  cna : Bool
  pdev : Bool

/-- `LinNet_ConnectUplink`: the uplink is refused, or its character device is. -/
inductive ConnectResult
  | ok
  | refused
  | noChardev (err : Int)
deriving DecidableEq, Repr

structure RegAnswers where
  /-- `dev_alloc_name`, or 0 for a name that is there. -/
  name : Int
  init : Bool
  poll : Bool
  cna : Bool
  connect : ConnectResult
  opened : Bool
  /-- `register_nic_chrdev` fails with an error. -/
  chardev_ne : ∀ err, connect = .noChardev err → err ≠ 0

/-- `EIO` and `ENOMEM` -/
def eIo : Int := 5
def eNoMem : Int := 12

namespace NetReg

variable (cfg : RegConfig) (ans : RegAnswers) (s : NetReg)

/-! ## The functions -/

/-- `netdev_init_queue_locks` -/
def initQueueLocks : NetReg :=
  { s with lists := s.lists.map fun _ => .live, lost := s.lost + s.lists.count .live }

/-- `netdev_destroy_queue_locks` -/
def destroyQueueLocks : NetReg :=
  { s with
    lists := s.lists.map fun _ => .freed
    fault := s.fault || s.lists.any fun l => l ≠ .live }

/-- `netdev_poll_cleanup`, with `napi_poll_cleanup` of each context. -/
def pollCleanup : NetReg := { s with napi := [], netPoll := false }

def registerNetdevice : Int × NetReg :=
  if s.regState = .earlyNapiAddFailed then (-eIo, s)
  else
    let s := s.initQueueLocks
    if !ans.init then (-eIo, s)
    else if !ans.poll then (-eNoMem, s)
    else
      let s := { s with netPoll := true }
      if cfg.cna && !ans.cna then (-eIo, s.pollCleanup)
      else
        let s :=
          if cfg.cna then { s with cnaList := s.cnaList ++ [cfg.dev] }
          else { s with devBase := cfg.dev :: s.devBase }
        (0, { s with refcnt := s.refcnt + 1, regState := .registered })

def unregisterNetdevice : NetReg :=
  let s :=
    if cfg.cna then { s with cnaList := s.cnaList.erase cfg.dev }
    else { s with devBase := s.devBase.erase cfg.dev }
  let s := { s with regState := .unregistered }.pollCleanup.destroyQueueLocks
  { s with refcnt := s.refcnt - 1, fault := s.fault || s.refcnt = 0 }

/-- `LinNet_DisconnectUplink`: the pointer stays. -/
def disconnectUplink : NetReg :=
  match s.uplink with
  | .null => s
  | .connected => { s with uplink := .stale }
  | .stale => { s with fault := true }

/-- `LinNet_ConnectUplink` -/
def connectUplink : Int × NetReg :=
  match ans.connect with
  | .ok => (0, { s with uplink := .connected })
  | .refused => (-eIo, s)
  | .noChardev err => (err, { s with uplink := .connected })

def registerNetdev : Int × NetReg :=
  if ans.name < 0 then (ans.name, s)
  else
    let (err, s) := s.registerNetdevice cfg ans
    if cfg.pdev || cfg.cna || err ≠ 0 then (err, s)
    else
      let (err, s) := s.connectUplink ans
      if err ≠ 0 then (err, s.unregisterNetdevice cfg)
      else if ans.opened then (0, { s with opened := true })
      else (-eIo, s.disconnectUplink.unregisterNetdevice cfg)

def unregisterNetdev : NetReg :=
  let s :=
    if cfg.cna then s
    else
      let s := if cfg.pdev then s else { s with opened := false, fault := s.fault || !s.opened }
      s.disconnectUplink
  s.unregisterNetdevice cfg

end NetReg

inductive NetRegOp
  /-- `netif_napi_add`; `ok` tells if the context gets a net poll of its own. -/
  | napiAdd (id : Nat) (ok : Bool)
  | napiDel (id : Nat)
  /-- `pci_announce_device` connects the uplink of a device on the PCI bus. -/
  | announce
deriving DecidableEq, Repr

def NetReg.apply (cfg : RegConfig) (s : NetReg) : NetRegOp → NetReg
  | .napiAdd id ok =>
    if ok || s.regState = .registered then { s with napi := ⟨id, ok⟩ :: s.napi }
    else { s with regState := .earlyNapiAddFailed }
  | .napiDel id => { s with napi := s.napi.filter (·.id ≠ id) }
  | .announce =>
    if cfg.pdev && !cfg.cna && s.uplink = .null then { s with uplink := .connected } else s

/-! ## The claim -/

/-- A device that can be registered: it is on no list, has nothing that the registration
    acquires, and `dev->uplinkDev` is `NULL`, as `LinNet_ConnectUplink` asserts. -/
structure NetReg.Ready (cfg : RegConfig) (s : NetReg) : Prop where
  state : s.regState ≠ .registered
  base : cfg.dev ∉ s.devBase
  cna : cfg.dev ∉ s.cnaList
  lists : OutputList.live ∉ s.lists
  netPoll : s.netPoll = false
  refcnt : s.refcnt = 0
  uplink : s.uplink = .null
  opened : s.opened = false
  fault : s.fault = false

/-- The device is as before, with its NAPI contexts or without any, and the call can be
    repeated. -/
structure RolledBack (cfg : RegConfig) (s s' : NetReg) : Prop where
  ready : s'.Ready cfg
  devBase : s'.devBase = s.devBase
  cnaList : s'.cnaList = s.cnaList
  lost : s'.lost = s.lost
  napi : s'.napi = s.napi ∨ s'.napi = []

structure Released (s s' : NetReg) : Prop where
  devBase : s'.devBase = s.devBase
  cnaList : s'.cnaList = s.cnaList
  refcnt : s'.refcnt = s.refcnt
  lists : OutputList.live ∉ s'.lists
  lost : s'.lost = s.lost
  netPoll : s'.netPoll = false
  napi : s'.napi = []
  uplink : s'.uplink ≠ .connected
  opened : s'.opened = false
  fault : s'.fault = false

open NetReg

structure RegisterAllOrNothing (cfg : RegConfig) (ans : RegAnswers) (s : NetReg) : Prop where
  netdevice : (s.registerNetdevice cfg ans).1 ≠ 0 →
    RolledBack cfg s (s.registerNetdevice cfg ans).2
  netdev : (s.registerNetdev cfg ans).1 ≠ 0 → RolledBack cfg s (s.registerNetdev cfg ans).2
  released : (s.registerNetdev cfg ans).1 = 0 → ∀ ops : List NetRegOp,
    Released s ((ops.foldl (apply cfg) (s.registerNetdev cfg ans).2).unregisterNetdev cfg)

def InitSucceeds (cfg : RegConfig) (ans : RegAnswers) : Prop :=
  ans.init = true ∧ ans.poll = true ∧ (cfg.cna = true → ans.cna = true)

structure Unwindable (cfg : RegConfig) (ans : RegAnswers) (s : NetReg) : Prop where
  lists : s.regState = .earlyNapiAddFailed ∨ s.lists = [] ∨ InitSucceeds cfg ans
  uplink : 0 ≤ ans.name → s.regState ≠ .earlyNapiAddFailed → InitSucceeds cfg ans →
    cfg.pdev = false → cfg.cna = false →
      ans.connect = .refused ∨ (ans.connect = .ok ∧ ans.opened = true)

/-! ## Registered devices -/

section Register

variable {cfg : RegConfig} {ans : RegAnswers} {s t : NetReg}

/-- `t` is a device that was registered from `s`. -/
structure Registered (cfg : RegConfig) (s t : NetReg) : Prop where
  devBase : t.devBase = if cfg.cna then s.devBase else cfg.dev :: s.devBase
  cnaList : t.cnaList = if cfg.cna then s.cnaList ++ [cfg.dev] else s.cnaList
  state : t.regState = .registered
  lists : ∀ l ∈ t.lists, l = .live
  lost : t.lost = s.lost
  refcnt : t.refcnt = s.refcnt + 1
  fault : t.fault = false

theorem registerNetdevice_cases (ans : RegAnswers) (hs : s.Ready cfg) :
    (s.regState = .earlyNapiAddFailed ∧ s.registerNetdevice cfg ans = (-eIo, s)) ∨
    (s.regState ≠ .earlyNapiAddFailed ∧ InitSucceeds cfg ans ∧
      ∃ t, s.registerNetdevice cfg ans = (0, t) ∧ Registered cfg s t ∧ t.uplink = .null ∧
        t.opened = false) ∨
    (s.regState ≠ .earlyNapiAddFailed ∧ ¬InitSucceeds cfg ans ∧
      ∃ err t, s.registerNetdevice cfg ans = (err, t) ∧ err ≠ 0 ∧
        t.lists = s.lists.map (fun _ => .live) ∧ (s.lists = [] → RolledBack cfg s t)) := by
  have hlost : s.lists.count .live = 0 := List.count_eq_zero.mpr hs.lists
  have hback {t : NetReg} (hstate : t.regState = s.regState) (hbase : t.devBase = s.devBase)
      (hcna : t.cnaList = s.cnaList) (hlists : t.lists = s.lists.map fun _ => .live)
      (hlost : t.lost = s.lost) (hrefcnt : t.refcnt = s.refcnt) (huplink : t.uplink = s.uplink)
      (hopened : t.opened = s.opened) (hfault : t.fault = s.fault) (hpoll : t.netPoll = false)
      (hnapi : t.napi = s.napi ∨ t.napi = []) (hnil : s.lists = []) : RolledBack cfg s t :=
    ⟨⟨hstate ▸ hs.state, hbase ▸ hs.base, hcna ▸ hs.cna, by rw [hlists, hnil]; exact nofun, hpoll,
      hrefcnt ▸ hs.refcnt, huplink ▸ hs.uplink, hopened ▸ hs.opened, hfault ▸ hs.fault⟩,
      hbase, hcna, hlost, hnapi⟩
  unfold registerNetdevice
  by_cases hearly : s.regState = .earlyNapiAddFailed
  · exact .inl ⟨hearly, if_pos hearly⟩
  rw [if_neg hearly]
  refine .inr ?_
  cases hinit : ans.init with
  | false =>
    refine .inr ⟨hearly, fun h => (nomatch hinit.symm.trans h.1), _, _, rfl, by decide, rfl, ?_⟩
    exact hback rfl rfl rfl rfl (by simp [initQueueLocks, hlost]) rfl rfl rfl rfl hs.netPoll
      (.inl rfl)
  | true =>
    cases hpoll : ans.poll with
    | false =>
      refine .inr ⟨hearly, fun h => (nomatch hpoll.symm.trans h.2.1), _, _, rfl, by decide, rfl, ?_⟩
      exact hback rfl rfl rfl rfl (by simp [initQueueLocks, hlost]) rfl rfl rfl rfl
        hs.netPoll (.inl rfl)
    | true =>
      by_cases hcna : cfg.cna = true ∧ ans.cna = false
      · have hfail : (cfg.cna && !ans.cna) = true := by rw [hcna.1, hcna.2]; rfl
        refine .inr ⟨hearly, fun h => (nomatch hcna.2.symm.trans (h.2.2 hcna.1)), -eIo,
          pollCleanup { s.initQueueLocks with netPoll := true }, ?_, by decide, rfl, ?_⟩
        · simp only [hfail]
          rfl
        exact hback rfl rfl rfl rfl (by simp [pollCleanup, initQueueLocks, hlost])
          rfl rfl rfl rfl rfl (.inr rfl)
      · have hok : (cfg.cna && !ans.cna) = false := by
          cases hc : cfg.cna <;> cases ha : ans.cna <;> simp_all
        refine .inl ⟨hearly, ⟨hinit, hpoll, fun hc => by simpa [hc] using hok⟩, ?_⟩
        simp only [hok]
        refine ⟨_, rfl, ⟨?_, ?_, rfl, ?_, ?_, ?_, ?_⟩, ?_, ?_⟩ <;> cases cfg.cna <;>
          simp [initQueueLocks, hlost, hs.fault, hs.uplink, hs.opened]

theorem Registered.unregister (h : Registered cfg s t) (hs : s.Ready cfg) :
    (t.opened = false → t.uplink ≠ .connected → Released s (t.unregisterNetdevice cfg)) ∧
    (t.opened = false → t.uplink = .null → RolledBack cfg s (t.unregisterNetdevice cfg)) ∧
    (t.unregisterNetdevice cfg).uplink = t.uplink := by
  have hbase : (t.unregisterNetdevice cfg).devBase = s.devBase := by
    unfold unregisterNetdevice
    cases hc : cfg.cna <;>
      simp [hc, h.devBase, pollCleanup, destroyQueueLocks]
  have hcna : (t.unregisterNetdevice cfg).cnaList = s.cnaList := by
    unfold unregisterNetdevice
    cases hc : cfg.cna <;>
      simp [hc, h.cnaList, pollCleanup, destroyQueueLocks, List.erase_append_right _ hs.cna]
  have hlists : OutputList.live ∉ (t.unregisterNetdevice cfg).lists := by
    unfold unregisterNetdevice
    cases cfg.cna <;> simp [pollCleanup, destroyQueueLocks]
  have hfault : (t.unregisterNetdevice cfg).fault = false := by
    unfold unregisterNetdevice
    cases cfg.cna <;>
      simpa [pollCleanup, destroyQueueLocks, h.fault, h.refcnt] using h.lists
  have hrest : (t.unregisterNetdevice cfg).refcnt = s.refcnt ∧
      (t.unregisterNetdevice cfg).lost = s.lost ∧
      (t.unregisterNetdevice cfg).netPoll = false ∧ (t.unregisterNetdevice cfg).napi = [] ∧
      (t.unregisterNetdevice cfg).uplink = t.uplink ∧
      (t.unregisterNetdevice cfg).opened = t.opened ∧
      (t.unregisterNetdevice cfg).regState = .unregistered := by
    unfold unregisterNetdevice
    cases cfg.cna <;>
      simp [pollCleanup, destroyQueueLocks, h.refcnt, h.lost]
  obtain ⟨hrefcnt, hlost, hpoll, hnapi, huplink, hopened, hstate⟩ := hrest
  refine ⟨fun hop hup => ?_, fun hop hup => ?_, huplink⟩
  · exact ⟨hbase, hcna, hrefcnt, hlists, hlost, hpoll, hnapi, huplink ▸ hup, hopened.trans hop,
      hfault⟩
  · refine ⟨⟨by rw [hstate]; nofun, hbase ▸ hs.base, hcna ▸ hs.cna, hlists, hpoll,
      hrefcnt.trans hs.refcnt, huplink.trans hup, hopened.trans hop, hfault⟩, hbase, hcna, hlost,
      .inr hnapi⟩

/-- The uplink of a registered device: none for a CNA device, and open for a pseudo device. -/
structure UplinkOk (cfg : RegConfig) (t : NetReg) : Prop where
  known : t.uplink ≠ .stale
  cna : cfg.cna = true → t.uplink = .null
  opened : t.opened = !(cfg.cna || cfg.pdev)

theorem Registered.apply (op : NetRegOp) (h : Registered cfg s t ∧ UplinkOk cfg t) :
    Registered cfg s (t.apply cfg op) ∧ UplinkOk cfg (t.apply cfg op) := by
  obtain ⟨hreg, hup⟩ := h
  cases op with
  | napiAdd id ok =>
    have hstate : (ok || decide (t.regState = .registered)) = true := by simp [hreg.state]
    simp only [NetReg.apply, hstate, if_true]
    exact ⟨{ hreg with }, { hup with }⟩
  | napiDel id => exact ⟨{ hreg with }, { hup with }⟩
  | announce =>
    simp only [NetReg.apply]
    split_ifs with hann
    · refine ⟨{ hreg with }, { hup with known := nofun, cna := fun hc => ?_ }⟩
      simp [hc] at hann
    · exact ⟨hreg, hup⟩

theorem Registered.foldl (ops : List NetRegOp) (h : Registered cfg s t ∧ UplinkOk cfg t) :
    Registered cfg s (ops.foldl (NetReg.apply cfg) t) ∧
      UplinkOk cfg (ops.foldl (NetReg.apply cfg) t) := by
  induction ops generalizing t with
  | nil => exact h
  | cons op ops ih => exact ih (Registered.apply op h)

theorem Registered.disconnect (h : Registered cfg s t) (hknown : t.uplink ≠ .stale) :
    Registered cfg s t.disconnectUplink ∧ t.disconnectUplink.opened = t.opened ∧
      t.disconnectUplink.uplink ≠ .connected := by
  unfold disconnectUplink
  split
  · next hnull => exact ⟨h, rfl, by rw [hnull]; nofun⟩
  · exact ⟨{ h with }, rfl, nofun⟩
  · next hstale => exact absurd hstale hknown

theorem Registered.unregisterNetdev (h : Registered cfg s t) (hup : UplinkOk cfg t)
    (hs : s.Ready cfg) : Released s (t.unregisterNetdev cfg) := by
  unfold NetReg.unregisterNetdev
  have hopened := hup.opened
  cases hc : cfg.cna with
  | true =>
    rw [hc] at hopened
    refine (h.unregister hs).1 hopened ?_
    rw [hup.cna hc]
    nofun
  | false =>
    cases hp : cfg.pdev with
    | true =>
      rw [hc, hp] at hopened
      obtain ⟨hreg, hclosed, huplink⟩ := h.disconnect hup.known
      exact (hreg.unregister hs).1 (hclosed.trans hopened) huplink
    | false =>
      rw [hc, hp] at hopened
      have hfault : (t.fault || !t.opened) = false := by rw [h.fault, hopened]; rfl
      simp only [Bool.false_eq_true, if_false, hfault]
      have hreg : Registered cfg s { t with opened := false, fault := false } :=
        { h with fault := rfl }
      obtain ⟨hreg, hclosed, huplink⟩ := hreg.disconnect hup.known
      exact (hreg.unregister hs).1 hclosed huplink

theorem registerNetdev_pseudo (hname : ¬ans.name < 0) (hpdev : cfg.pdev = false)
    (hcna : cfg.cna = false) (h : s.registerNetdevice cfg ans = (0, t)) :
    s.registerNetdev cfg ans =
      match ans.connect with
      | .ok =>
        if ans.opened then (0, { t with uplink := .connected, opened := true })
        else (-eIo, unregisterNetdevice cfg { t with uplink := .stale })
      | .refused => (-eIo, t.unregisterNetdevice cfg)
      | .noChardev err => (err, unregisterNetdevice cfg { t with uplink := .connected }) := by
  unfold registerNetdev
  rw [if_neg hname, h, hpdev, hcna]
  unfold connectUplink
  cases hcon : ans.connect with
  | ok => cases ans.opened <;> rfl
  | refused => rfl
  | noChardev err => simp [ans.chardev_ne err hcon]

theorem registerNetdev_other (hname : ¬ans.name < 0)
    (h : cfg.pdev = true ∨ cfg.cna = true ∨ (s.registerNetdevice cfg ans).1 ≠ 0) :
    s.registerNetdev cfg ans = s.registerNetdevice cfg ans := by
  unfold registerNetdev
  rw [if_neg hname]
  have hout : (cfg.pdev || cfg.cna || decide ((s.registerNetdevice cfg ans).1 ≠ 0)) = true := by
    rcases h with h | h | h <;> simp [h]
  dsimp only
  rw [if_pos hout]

theorem registerNetdev_noName (hname : ans.name < 0) :
    s.registerNetdev cfg ans = (ans.name, s) := if_pos hname

theorem RolledBack.refl (hs : s.Ready cfg) : RolledBack cfg s s := ⟨hs, rfl, rfl, rfl, .inl rfl⟩

theorem allOrNothing_of_failed {err : Int} (hs : s.Ready cfg) (herr : err ≠ 0)
    (hrun : s.registerNetdevice cfg ans = (err, t)) (hback : RolledBack cfg s t) :
    RegisterAllOrNothing cfg ans s := by
  have hnetdev : (s.registerNetdev cfg ans).1 ≠ 0 ∧
      RolledBack cfg s (s.registerNetdev cfg ans).2 := by
    by_cases hname : ans.name < 0
    · rw [registerNetdev_noName hname]
      exact ⟨by omega, .refl hs⟩
    · rw [registerNetdev_other hname (.inr (.inr (by rw [hrun]; exact herr))), hrun]
      exact ⟨herr, hback⟩
  exact ⟨fun _ => by rw [hrun]; exact hback, fun _ => hnetdev.2, fun h => absurd h hnetdev.1⟩

theorem released_of_registered (hs : s.Ready cfg) (h : Registered cfg s t) (hup : UplinkOk cfg t)
    (ops : List NetRegOp) :
    Released s ((ops.foldl (apply cfg) t).unregisterNetdev cfg) := by
  obtain ⟨hreg, hup⟩ := Registered.foldl ops ⟨h, hup⟩
  exact hreg.unregisterNetdev hup hs

theorem allOrNothing_pseudo_iff (hs : s.Ready cfg) (hname : ¬ans.name < 0)
    (hpdev : cfg.pdev = false) (hcna : cfg.cna = false)
    (hrun : s.registerNetdevice cfg ans = (0, t)) (h : Registered cfg s t)
    (huplink : t.uplink = .null) (hopened : t.opened = false) :
    RegisterAllOrNothing cfg ans s ↔
      ans.connect = .refused ∨ (ans.connect = .ok ∧ ans.opened = true) := by
  have hnetdev := registerNetdev_pseudo hname hpdev hcna hrun
  have hnetdevice : (s.registerNetdevice cfg ans).1 ≠ 0 →
      RolledBack cfg s (s.registerNetdevice cfg ans).2 := by rw [hrun]; exact fun h => absurd rfl h
  have hstays (u : UplinkDev) {err : Int} (hu : u ≠ .null) (herr : err ≠ 0)
      (hfail : s.registerNetdev cfg ans = (err, unregisterNetdevice cfg { t with uplink := u })) :
      ¬RegisterAllOrNothing cfg ans s := by
    intro hall
    have hback := hall.netdev (by rw [hfail]; exact herr)
    rw [hfail] at hback
    have hsame := (Registered.unregister (t := { t with uplink := u }) { h with } hs).2.2
    exact hu (hsame.symm.trans hback.ready.uplink)
  cases hcon : ans.connect with
  | refused =>
    rw [hcon] at hnetdev
    refine iff_of_true ⟨hnetdevice, fun _ => ?_, fun hzero => ?_⟩ (.inl rfl)
    · rw [hnetdev]
      exact (h.unregister hs).2.1 hopened huplink
    · rw [hnetdev] at hzero
      exact absurd hzero (by decide : -eIo ≠ 0)
  | noChardev err =>
    rw [hcon] at hnetdev
    exact iff_of_false (hstays .connected nofun (ans.chardev_ne err hcon) hnetdev) (by simp)
  | ok =>
    rw [hcon] at hnetdev
    cases hopen : ans.opened with
    | false =>
      rw [hopen] at hnetdev
      exact iff_of_false (hstays .stale nofun (by decide) hnetdev) (by simp)
    | true =>
      rw [hopen] at hnetdev
      refine iff_of_true ⟨hnetdevice, fun hne => ?_, fun _ => ?_⟩ (.inr ⟨rfl, rfl⟩)
      · rw [hnetdev] at hne
        exact absurd rfl hne
      · rw [hnetdev]
        exact released_of_registered hs { h with }
          ⟨nofun, fun hc => by simp [hcna] at hc, by rw [hcna, hpdev]; rfl⟩

/-- **Registration** is all or nothing exactly if no step behind the output lists fails, unless
    the device has no queues, and a pseudo device whose uplink is not refused gets its character
    device and is opened. -/
theorem register_all_or_nothing_iff (hs : s.Ready cfg) :
    RegisterAllOrNothing cfg ans s ↔ Unwindable cfg ans s := by
  rcases registerNetdevice_cases ans hs with
    ⟨hearly, hrun⟩ | ⟨hearly, hinit, t, hrun, hreg, huplink, hopened⟩ |
      ⟨hearly, hinit, err, t, hrun, herr, hlists, hback⟩
  · -- nothing was acquired
    exact iff_of_true (allOrNothing_of_failed hs (by simp [eIo]) hrun (.refl hs))
      ⟨.inl hearly, fun _ h => absurd hearly h⟩
  · have hnetdevice : (s.registerNetdevice cfg ans).1 ≠ 0 →
        RolledBack cfg s (s.registerNetdevice cfg ans).2 := by
      rw [hrun]
      exact fun h => absurd rfl h
    by_cases hname : ans.name < 0
    · refine iff_of_true ⟨hnetdevice, fun _ => ?_, fun hzero => ?_⟩
        ⟨.inr (.inr hinit), fun h => absurd hname (Int.not_lt.mpr h)⟩
      · rw [registerNetdev_noName hname]
        exact .refl hs
      · rw [registerNetdev_noName hname] at hzero
        omega
    · by_cases hpseudo : cfg.pdev = false ∧ cfg.cna = false
      · rw [allOrNothing_pseudo_iff hs hname hpseudo.1 hpseudo.2 hrun hreg huplink hopened]
        exact ⟨fun h => ⟨.inr (.inr hinit), fun _ _ _ _ _ => h⟩,
          fun h => h.uplink (Int.not_lt.mp hname) hearly hinit hpseudo.1 hpseudo.2⟩
      · -- the uplink is connected elsewhere, or there is none
        have hother : cfg.pdev = true ∨ cfg.cna = true := by
          cases hp : cfg.pdev <;> cases hc : cfg.cna <;> simp_all
        have hnetdev := registerNetdev_other (s := s) hname (hother.imp_right .inl)
        refine iff_of_true ⟨hnetdevice, hnetdev ▸ hnetdevice, fun _ => ?_⟩
          ⟨.inr (.inr hinit), fun _ _ _ hp hc => absurd ⟨hp, hc⟩ hpseudo⟩
        rw [hnetdev, hrun]
        refine released_of_registered hs hreg ⟨by rw [huplink]; nofun, fun _ => huplink, ?_⟩
        rw [hopened]
        rcases hother with h | h <;> simp [h]
  · by_cases hnil : s.lists = []
    · exact iff_of_true (allOrNothing_of_failed hs herr hrun (hback hnil))
        ⟨.inr (.inl hnil), fun _ _ h => absurd h hinit⟩
    · refine iff_of_false (fun hall => ?_) fun h => ?_
      · -- the output lists are still there
        have hready := (hall.netdevice (by rw [hrun]; exact herr)).ready.lists
        rw [hrun, hlists] at hready
        obtain ⟨l, hl⟩ := List.exists_mem_of_ne_nil _ hnil
        exact hready (List.mem_map.mpr ⟨l, hl, rfl⟩)
      · rcases h.lists with h | h | h
        · exact hearly h
        · exact hnil h
        · exact hinit h

def twoQueues : NetReg where
  regState := .uninitialized
  lists := [.unset, .unset]
  lost := 0
  netPoll := false
  napi := [⟨0, true⟩]
  devBase := [7]
  cnaList := []
  refcnt := 0
  uplink := .null
  opened := false
  fault := false

theorem ready_twoQueues : twoQueues.Ready ⟨1, false, false⟩ :=
  ⟨nofun, by decide, by decide, by decide, rfl, rfl, rfl, rfl, rfl⟩

/-- The uplink is refused. -/
theorem register_all_or_nothing_refused :
    RegisterAllOrNothing ⟨1, false, false⟩ ⟨0, true, true, true, .refused, true, nofun⟩
      twoQueues :=
  (register_all_or_nothing_iff ready_twoQueues).mpr
    ⟨.inr (.inr ⟨rfl, rfl, fun _ => rfl⟩), fun _ _ _ _ _ => .inl rfl⟩

/-- The driver's `init` fails, and the output lists stay. -/
theorem register_some :
    ¬RegisterAllOrNothing ⟨1, false, false⟩ ⟨0, false, true, true, .ok, true, nofun⟩
      twoQueues :=
  fun hall => absurd (hall.netdevice (by decide)).ready.lists (by decide)

end Register

end VmkDrivers.Vmklinux
