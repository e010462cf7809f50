/-
  VmkDrivers.Wfs.Network

  Stations in a ring, and the frames between them.

  Each station runs the receive path of `Wfs.Receive`; a frame it hands to a
  port crosses the link of that port, unless the link is dead, and waits at
  the neighbour until it is received.  Frames are received in any order.

  A frame in flight carries two things no station looks at: which frame of
  the start it goes back to, and how often it was sent anew by another station
  on the way.  The log of the network is made of them.
-/

import VmkDrivers.Lib.Ring
import VmkDrivers.Wfs.ControlPacket

namespace VmkDrivers.Wfs

open VmkDrivers.Lib

/-! ## Topology -/

structure Topology (V : Type) [Fintype V] where
  ring : Lib.Ring V
  id : V → WfsId
  id_injective : Function.Injective id
  /-- The way the primary port of a station leads. -/
  primary : V → Dir
  /-- Links are named as in `Ring.link`. -/
  dead : V → Bool

namespace Topology

variable {V : Type} [Fintype V] (T : Topology V)

def facing (v : V) : Port → Dir
  | .primary => T.primary v
  | .secondary => (T.primary v).other

def portFacing (v : V) (d : Dir) : Port := if T.primary v = d then .primary else .secondary

@[simp] theorem facing_portFacing (v : V) (d : Dir) : T.facing v (T.portFacing v d) = d := by
  unfold portFacing
  split
  · next h => exact h
  · next h => exact ((Dir.eq_or_eq_other (T.primary v) d).resolve_left (Ne.symm h)).symm

@[simp] theorem portFacing_facing (v : V) (p : Port) : T.portFacing v (T.facing v p) = p := by
  cases p with
  | primary => exact if_pos rfl
  | secondary => exact if_neg (Dir.other_ne _).symm

@[simp] theorem facing_other (v : V) (p : Port) : T.facing v p.other = (T.facing v p).other := by
  cases p with
  | primary => rfl
  | secondary => exact (Dir.other_other _).symm

def Owns (v : V) (b : UInt8) : Prop := (T.id v).byte = b

theorem owns_unique {v w : V} {b : UInt8} (hv : T.Owns v b) (hw : T.Owns w b) : v = w :=
  T.id_injective (WfsId.byte_injective (hv.trans hw.symm))

end Topology

/-! ## Frames in flight -/

/-- A frame on its way to `dest`. -/
structure Flight (V : Type) where
  dir : Dir
  dest : V
  skb : Skb
  /-- The frame of the start it goes back to. -/
  root : Nat
  /-- How often it was sent anew since. -/
  gen : Nat

inductive NetEvent (V : Type) where
  /-- A frame of generation `gen` was put on the link. -/
  | crossed (root gen : Nat) (dir : Dir) (link : V)
  /-- A station sent a frame of its own because of a received one. -/
  | reoriginated (root gen : Nat) (dir : Dir)
  /-- A station gave the inner frame to its network stack. -/
  | passed (root : Nat) (v : V)
deriving DecidableEq

structure Net (V π : Type) where
  station : V → Station π
  flight : List (Flight V)
  log : List (NetEvent V) := []

section Network

variable {V π : Type} [Fintype V] (T : Topology V)

/-- The generation of a frame that station `v` sends because of one of generation `gen`. -/
def Topology.genOf (v : V) (gen : Nat) (skb : Skb) : Nat :=
  if skb.src = (T.id v).byte then gen + 1 else gen

def Topology.launch (v : V) (root gen : Nat) (sent : Port × Skb) : Flight V :=
  let dir := T.facing v sent.1
  { dir, dest := T.ring.step dir v, skb := sent.2, root, gen := T.genOf v gen sent.2 }

/-- The link of the port of `v` that leads `dir` is dead. -/
def Topology.deadOn (v : V) (dir : Dir) : Bool := T.dead (T.ring.link dir v)

/-- The frames handed to the ports of `v` that reach a neighbour. -/
def Topology.launchAll (v : V) (root gen : Nat) (sent : List (Port × Skb)) : List (Flight V) :=
  (sent.map (T.launch v root gen)).filter fun f => !T.deadOn v f.dir

/-- What is logged when `v` sends. -/
def Topology.logSent (v : V) (root gen : Nat) (sent : List (Port × Skb)) : List (NetEvent V) :=
  ((T.launchAll v root gen sent).map fun f =>
      .crossed root f.gen f.dir (T.ring.link f.dir v)) ++
    (sent.filter fun s => s.2.src = (T.id v).byte).map fun s =>
      .reoriginated root (gen + 1) (T.facing v s.1)

theorem Topology.launchAll_port (v : V) (root gen : Nat) (p : Port) (l : List Skb) :
    T.launchAll v root gen (l.map fun skb => (p, skb)) =
      if T.deadOn v (T.facing v p) then [] else l.map fun skb => T.launch v root gen (p, skb) := by
  have hdir : ∀ f ∈ l.map fun skb => T.launch v root gen (p, skb), f.dir = T.facing v p := by
    intro f hf
    obtain ⟨skb, -, rfl⟩ := List.mem_map.mp hf
    rfl
  unfold launchAll
  rw [List.map_map]
  split
  · next hdead =>
    refine List.filter_eq_nil_iff.mpr fun f hf => ?_
    rw [hdir f hf, hdead]
    decide
  · next hlive =>
    refine List.filter_eq_self.mpr fun f hf => ?_
    rw [hdir f hf]
    simpa using hlive

variable [DecidableEq V] [EventStore π] (rb : Balancer Nat)

/-- The frame `f` is received by the station it was on its way to. -/
def Net.receive (inp : RxInputs) (f : Flight V) (rest : List (Flight V)) (net : Net V π) :
    Except Fault (Net V π) := do
  let v := f.dest
  let (st, sent, passes) ←
    ixgbeProcessSkbFields rb inp (T.portFacing v f.dir.other) (net.station v) f.skb
  pure {
    station := Function.update net.station v st
    flight := rest ++ T.launchAll v f.root f.gen sent
    log := (if passes then [.passed f.root v] else []) ++
      T.logSent v f.root f.gen sent ++ net.log }

/-- One of the frames in flight, the `i`-th, is received. -/
def NetStep (net : Net V π) (l : Nat × RxInputs) (net' : Net V π) : Prop :=
  ∃ f, net.flight[l.1]? = some f ∧
    net.receive T rb l.2 f (net.flight.eraseIdx l.1) = .ok net'

end Network

end VmkDrivers.Wfs
