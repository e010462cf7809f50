/-
  VmkDrivers.Vmklinux.LinkStatus

  The link of the NICs, asked for at regular intervals (`link_state_work_cb` in
  `linux_net.c`).

  For each device the work asks the driver for speed and duplex (`ETHTOOL_GSET`) and for
  the link (`ETHTOOL_GLINK`).  What they are told stands in three variables that are set
  before the loop over the devices.  So a device that refuses a request gets the answer of
  one before it (`link_own_iff`).

  The outcome of a request is what the work reads behind it, or that it failed.  The
  period of the work and the LRO options are left out.
-/

import VmkDrivers.Lib.CarriedLoop

namespace VmkDrivers.Vmklinux

open VmkDrivers.Lib

/-! ## Devices -/

/-- `vmklnx_uplink_link_state` -/
inductive UplinkLinkState where
  | down
  | up
deriving DecidableEq, Repr

/-- `struct net_device`, as far as its link goes. -/
structure LinkDevice where
  linkState : UplinkLinkState := .down
  linkSpeed : BitVec 32 := 0xffffffff
  fullDuplex : BitVec 32 := 0
  carrierOk : Bool
  toggled : Bool := false
  /-- `uplinkDev` is not `NULL`. -/
  uplinkDev : Bool := true
  /-- `IFF_UP` in `flags` -/
  isUp : Bool := true
  /-- `IFF_DEV_IS_OPEN` in `gflags` -/
  isOpen : Bool := true
deriving DecidableEq, Repr

/-- A device and the outcomes of the requests to it: speed and duplex, and `data` of the
    `struct ethtool_value`. -/
structure PolledDevice where
  dev : LinkDevice
  gset : Option (BitVec 16 × BitVec 8)
  glink : Option (BitVec 32)
deriving DecidableEq, Repr

/-- `netdev_ioctl` with `SIOCETHTOOL`, for the device. -/
def LinkDevice.netdevIoctl (dev : LinkDevice) (succeeds : Bool) : LinkDevice :=
  if !succeeds && !dev.isUp then { dev with isOpen := false } else dev

/-- `vmk_LinkStatus`, with the duplex as whether it is full. -/
structure LinkStatus where
  state : UplinkLinkState
  speed : BitVec 32
  full : Bool
deriving DecidableEq, Repr

/-- `SetNICLinkStatus`: what is pushed to the vmkernel. -/
def LinkDevice.setNICLinkStatus (dev : LinkDevice) : Option LinkStatus :=
  if dev.uplinkDev then
    some {
      state := dev.linkState
      speed := if dev.linkState = .up then dev.linkSpeed else 0
      full := dev.fullDuplex ≠ 0 }
  else none

/-- The events for `call_netdevice_notifiers`. -/
inductive NetdevEvent where
  | goingDown
  | up
deriving DecidableEq, Repr

/-! ## The work -/

/-- The local variables `speed`, `duplex` and `linkState`. -/
structure LinkLocals where
  speed : BitVec 32 := 0
  duplex : BitVec 32 := 0
  linkState : UplinkLinkState := .down
deriving DecidableEq, Repr

structure LinkReport where
  dev : LinkDevice
  events : List NetdevEvent := []
  pushed : Option LinkStatus := none
deriving DecidableEq, Repr

/-- "set speed, duplexity and link state if changed" -/
def LinkLocals.update (v : LinkLocals) (cur : LinkDevice) : LinkReport :=
  let stateChanged := cur.linkState ≠ v.linkState
  let events : List NetdevEvent :=
    if stateChanged then (if v.linkState = .down then [.goingDown] else [.up])
    else if cur.carrierOk && cur.toggled then [.goingDown, .up] else []
  -- the flap bit stays where there is no carrier
  let toggled := cur.toggled && !(decide stateChanged || cur.carrierOk)
  let dev := { cur with
    linkState := v.linkState
    toggled
    fullDuplex := if cur.carrierOk then v.duplex else cur.fullDuplex
    linkSpeed := if cur.carrierOk then v.speed else cur.linkSpeed }
  let linkChanged := stateChanged ∨
    cur.carrierOk = true ∧ (cur.fullDuplex ≠ v.duplex ∨ cur.linkSpeed ≠ v.speed)
  { dev, events, pushed := if linkChanged then dev.setNICLinkStatus else none }

/-- What `ETHTOOL_GSET` leaves in the variables. -/
def LinkLocals.gset (v : LinkLocals) : Option (BitVec 16 × BitVec 8) → LinkLocals
  | some (speed, duplex) => { v with speed := speed.setWidth 32, duplex := duplex.setWidth 32 }
  | none => v

/-- What `ETHTOOL_GLINK` leaves in the variables. -/
def LinkLocals.glink (v : LinkLocals) : Option (BitVec 32) → LinkLocals
  | some data => { v with linkState := if data ≠ 0 then .up else .down }
  | none => v

def linkStateTurn (v : LinkLocals) (p : PolledDevice) : LinkLocals × LinkReport :=
  let v := (v.gset p.gset).glink p.glink
  let cur := (p.dev.netdevIoctl p.gset.isSome).netdevIoctl p.glink.isSome
  (v, v.update cur)

/-- `link_state_work_cb`, with the outcome of `compat_alloc_user_space`. -/
def linkStateWorkCb (alloc : Bool) (devBase : List PolledDevice) : List LinkReport :=
  if alloc then carryLoop linkStateTurn {} devBase else devBase.map fun p => { dev := p.dev }

/-! ## What a device is told -/

structure ReportedLink where
  linkState : UplinkLinkState
  linkSpeed : BitVec 32
  fullDuplex : BitVec 32
  pushed : Option LinkStatus
deriving DecidableEq, Repr

def LinkReport.link (r : LinkReport) : ReportedLink where
  linkState := r.dev.linkState
  linkSpeed := r.dev.linkSpeed
  fullDuplex := r.dev.fullDuplex
  pushed := r.pushed

def reportedLink (alloc : Bool) (pre : List PolledDevice) (p : PolledDevice)
    (post : List PolledDevice) : Option ReportedLink :=
  (linkStateWorkCb alloc (pre ++ p :: post))[pre.length]?.map LinkReport.link

/-- **A link of its own**: with any answers of the other devices, and the devices in any
    order, the device gets the same. -/
def LinkOwn (alloc : Bool) (pre : List PolledDevice) (p : PolledDevice)
    (post : List PolledDevice) : Prop :=
  ∀ pre' post', ((pre' ++ post').map (·.dev)).Perm ((pre ++ post).map (·.dev)) →
    reportedLink alloc pre' p post' = reportedLink alloc pre p post

variable {alloc : Bool} {pre post : List PolledDevice} {p : PolledDevice} {v v' : LinkLocals}

@[simp] theorem netdevIoctl_carrierOk (dev : LinkDevice) (succeeds : Bool) :
    (dev.netdevIoctl succeeds).carrierOk = dev.carrierOk := by
  unfold LinkDevice.netdevIoctl
  split <;> rfl

theorem reportedLink_eq :
    reportedLink true pre p post =
      some (linkStateTurn (carried linkStateTurn {} pre) p).2.link := by
  rw [reportedLink, linkStateWorkCb, if_pos rfl, getElem?_carryLoop]
  rfl

theorem reportedLink_of_no_alloc :
    reportedLink false pre p post = some (LinkReport.link { dev := p.dev }) := by
  rw [reportedLink, linkStateWorkCb, if_neg Bool.false_ne_true, List.map_append, List.map_cons,
    List.getElem?_append_right (Nat.le_of_eq (List.length_map _)), List.length_map, Nat.sub_self]
  rfl

theorem linkStateTurn_link_congr (v v' : LinkLocals) (hglink : p.glink.isSome = true)
    (hgset : p.gset.isSome = true ∨ p.dev.carrierOk = false) :
    (linkStateTurn v p).2.link = (linkStateTurn v' p).2.link := by
  obtain ⟨data, hdata⟩ := Option.isSome_iff_exists.mp hglink
  rcases hgset with hgset | hcarrier
  · -- all of the variables are set
    obtain ⟨⟨speed, duplex⟩, hanswer⟩ := Option.isSome_iff_exists.mp hgset
    simp only [linkStateTurn, hdata, hanswer, LinkLocals.gset, LinkLocals.glink]
  · -- without a carrier, speed and duplex are not looked at
    cases p.gset <;>
      simp [linkStateTurn, hdata, LinkLocals.gset, LinkLocals.glink, LinkLocals.update,
        LinkReport.link, LinkDevice.setNICLinkStatus, hcarrier]

theorem linkState_of_glink_failed (hglink : p.glink = none) :
    (linkStateTurn v p).2.link.linkState = v.linkState := by
  rw [linkStateTurn, hglink]
  cases p.gset <;> rfl

theorem linkSpeed_of_gset_failed (hgset : p.gset = none) (hcarrier : p.dev.carrierOk = true) :
    (linkStateTurn v p).2.link.linkSpeed = v.speed := by
  rw [linkStateTurn, hgset]
  cases p.glink <;>
    simp [LinkLocals.gset, LinkLocals.glink, LinkLocals.update, LinkReport.link, hcarrier]

/-! ## Whose link it is -/

theorem LinkOwn.behind {o : PolledDevice} {others : List PolledDevice}
    (h : LinkOwn true pre p post) (hothers : pre ++ post = o :: others)
    (gset gset' : Option (BitVec 16 × BitVec 8)) (glink glink' : Option (BitVec 32)) :
    (linkStateTurn (linkStateTurn {} { o with gset, glink }).1 p).2.link =
      (linkStateTurn (linkStateTurn {} { o with gset := gset', glink := glink' }).1 p).2.link := by
  have hfirst := h [{ o with gset, glink }] others (by rw [hothers]; exact .refl _)
  have hsecond := h [{ o with gset := gset', glink := glink' }] others
    (by rw [hothers]; exact .refl _)
  rw [← hsecond, reportedLink_eq, reportedLink_eq] at hfirst
  exact Option.some.inj hfirst

/-- **A device has a link of its own** exactly if it answers the request for the link, and
    that for speed and duplex unless it has no carrier.  There may also be no other one. -/
theorem link_own_iff (alloc : Bool) (pre : List PolledDevice) (p : PolledDevice)
    (post : List PolledDevice) :
    LinkOwn alloc pre p post ↔
      alloc = false ∨ pre ++ post = [] ∨
        p.glink.isSome = true ∧ (p.gset.isSome = true ∨ p.dev.carrierOk = false) := by
  cases alloc with
  | false =>
    refine iff_of_true (fun pre' post' _ => ?_) (.inl rfl)
    rw [reportedLink_of_no_alloc, reportedLink_of_no_alloc]
  | true =>
    constructor
    · intro h
      refine .inr ?_
      rcases hothers : pre ++ post with _ | ⟨o, others⟩
      · exact .inl rfl
      · refine .inr ⟨?_, ?_⟩
        · -- a link that is up and one that is down before it
          by_contra hfailed
          rw [Option.not_isSome_iff_eq_none] at hfailed
          have hsame := h.behind hothers none none (some 1) (some 0)
          have hstate := congrArg ReportedLink.linkState hsame
          rw [linkState_of_glink_failed hfailed, linkState_of_glink_failed hfailed] at hstate
          cases hstate
        · by_contra hfailed
          rw [not_or, Option.not_isSome_iff_eq_none, Bool.not_eq_false] at hfailed
          obtain ⟨hgset, hcarrier⟩ := hfailed
          -- two speeds before it
          have hsame := h.behind hothers (some (1000, 1)) (some (0, 0)) none none
          have hspeed := congrArg ReportedLink.linkSpeed hsame
          rw [linkSpeed_of_gset_failed hgset hcarrier,
            linkSpeed_of_gset_failed hgset hcarrier] at hspeed
          cases hspeed
    · rintro (hfalse | hothers | ⟨hglink, hgset⟩) pre' post' hperm
      · cases hfalse
      · rw [hothers, List.map_nil, List.perm_nil, List.map_eq_nil_iff,
          List.append_eq_nil_iff] at hperm
        obtain ⟨rfl, rfl⟩ := hperm
        obtain ⟨rfl, rfl⟩ := List.append_eq_nil_iff.mp hothers
        rfl
      · rw [reportedLink_eq, reportedLink_eq,
          linkStateTurn_link_congr _ (carried linkStateTurn {} pre) hglink hgset]

/-- A NIC that is up with 1000 Mb/s, and a NIC that refuses both requests, behind it. -/
theorem link_not_own :
    ¬LinkOwn true [⟨{ carrierOk := true }, some (1000, 1), some 1⟩]
      ⟨{ carrierOk := true }, none, none⟩ [] := by
  intro h
  have hfirst := h [] [⟨{ carrierOk := true }, some (1000, 1), some 1⟩] (by decide)
  exact absurd hfirst (by decide)

end VmkDrivers.Vmklinux
