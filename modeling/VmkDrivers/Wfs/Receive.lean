/-
  VmkDrivers.Wfs.Receive

  The way of a frame through a station: `ixgbe_process_skb_fields` on the
  receiving side, `ixgbe_xmit_frame` and `ixgbe_wfs_send_raps` on the sending
  one.

  A function that transmits returns the frames it handed to the two ports,
  in order.  What the outcome depends on besides the station, such as
  allocations and full transmit rings, is an argument.
-/

import VmkDrivers.Wfs.Bert

namespace VmkDrivers.Wfs

open VmkDrivers.Lib

/-! ## Stations -/

structure Station (π : Type) where
  iwa : Iwa π
  fib : Fib
  wfsbert : WfsId → WfsBertCfg := fun _ => {}
  dataSeqno : UInt32 := 0

section Functions

variable {π : Type}

/-! ## Transmission -/

/-- `ixgbe_xmit_wfs_frame` on port `adapter`; `ring` is whether the transmit ring takes the
    frame. -/
def ixgbeXmitWfsFrame (iwa : Iwa π) (ring : Bool) (adapter : Port) (skb : Skb) :
    List (Port × Skb) :=
  if !iwa.link adapter || !iwa.carrier then []
  else
    -- "The minimum packet size for olinfo paylen is 17"
    let skb := if skb.skbLen < 17 then { skb with skbLen := 17 } else skb
    if ring then [(adapter, skb)] else []

/-- What `ixgbe_xmit_frame` takes from the outside. -/
structure TxInputs where
  /-- The local key of the forwarding table's lookup. -/
  key : FibKey
  pktbuf : Skb
  headroom : Bool := true
  copy : Bool := true
  ring : Port → Bool := fun _ => true

/-- The port `ixgbe_xmit_frame` sends a frame for one station on. -/
def WfsPeer.activeChannel (peer : WfsPeer) : Option Port :=
  match peer.fsmState with
  | .idle => peer.channelPri
  | .protect => peer.channelSec
  | .init => none

def ixgbeXmitFrame (inp : TxInputs) (st : Station π) (skb : EthSkb) :
    Except Fault (Station π × List (Port × Skb)) :=
  if st.iwa.state ≠ .opened ∨ st.iwa.linkUp = false ∨ st.iwa.carrier = false then .ok (st, [])
  else do
    let pkt? ← ixgbeWfsEncap st.iwa.core st.fib inp.key st.dataSeqno inp.pktbuf inp.headroom skb
    let st := { st with dataSeqno := st.dataSeqno + 1 }
    match pkt? with
    | none => pure (st, [])
    | some pkt => do
      -- determine egress adapter
      let adapter? ←
        if pkt.dest = wfsidAll then .ok (some Port.primary)
        else match WfsId.ofByte? pkt.dest with
          | some id => .ok (st.iwa.core.peer id).activeChannel
          | none => .error .tableIndex
      match adapter? with
      | none => pure (st, [])
      | some adapter =>
        let send := fun a =>
          if st.iwa.link a then ixgbeXmitWfsFrame st.iwa (inp.ring a) a pkt else []
        if pkt.dest = wfsidAll ∧ inp.copy = true then
          pure (st, send adapter ++ send adapter.other)
        else pure (st, send adapter)

/-- A round of `ixgbe_wfs_send_raps` on one port; `buf` is what the new `sk_buff` holds,
    `none` that there is none. -/
def sendRapsOn (iwa : Iwa π) (fib : Fib) (key : FibKey) (request : UInt8 → UInt8)
    (buf : Option Skb) (ring : Bool) (adapter : Port) : Except Fault (List (Port × Skb)) :=
  if !iwa.link adapter then .ok []
  else
    match buf with
    | none => .ok []
    | some buf => do
      let pkt ← wfspktInit iwa.core fib key buf wfspktTypeCtrlRaps 0 Mac.broadcast
      let pkt ← wfspktSetRaps pkt
      let pkt := { pkt with skbLen := pkt.len.toNat }
      pure (ixgbeXmitWfsFrame iwa ring adapter (setRapsRequest pkt 0 (request (pkt.opts 2))))

def rapsRequestOf (event : WfsFsmEvent) (old : UInt8) : UInt8 :=
  match event with
  | .rapsNR => wfsoptRapsReqNR
  | .rapsSF => wfsoptRapsReqSF
  | _ => old

def ixgbeWfsSendRaps (iwa : Iwa π) (fib : Fib) (key : FibKey) (buf : Port → Option Skb)
    (ring : Port → Bool) (event : WfsFsmEvent) : Except Fault (List (Port × Skb)) :=
  if !iwa.carrier then .ok []
  else do
    let pri ← sendRapsOn iwa fib key (rapsRequestOf event) (buf .primary) (ring .primary) .primary
    let sec ←
      sendRapsOn iwa fib key (rapsRequestOf event) (buf .secondary) (ring .secondary) .secondary
    pure (pri ++ sec)

/-! ## Reception -/

/-- What `ixgbe_process_skb_fields` takes from the outside. -/
structure RxInputs where
  /-- Allocation of event buffers. -/
  k : Kmalloc := fun _ => true
  /-- `skb_copy` for the frame to forward. -/
  copy : Bool := true
  /-- The transmit ring takes the forwarded frame. -/
  ringFwd : Bool := true
  /-- The transmit ring takes the frame a control handler left to send. -/
  ringCtrl : Bool := true
  bert : BertInputs := {}
  /-- The local key of the forwarding table's search, and its allocations. -/
  key : FibKey := ⟨0, Vector.replicate 6 0⟩
  kmalloc : Bool := true
  kmalloc' : Bool := true

/-- `ixgbe_wfs_decap`: whether the frame is a WFS frame with its whole header. -/
def ixgbeWfsDecap (skb : Skb) : Bool :=
  skb.hProto = wfspktEthertype && skb.len.toNat ≤ skb.skbLen

def Skb.isFor (skb : Skb) (id : WfsId) : Prop := skb.dest = wfsidAll ∨ skb.dest = id.byte

instance (skb : Skb) (id : WfsId) : Decidable (skb.isFor id) := inferInstanceAs (Decidable (_ ∨ _))

def Skb.isCtrl (skb : Skb) : Prop := skb.type &&& wfspktTypeCtrlMask ≠ 0

instance (skb : Skb) : Decidable skb.isCtrl := inferInstanceAs (Decidable (_ ≠ _))

/-- "forward packet if not destined to me only". -/
def forwardSkb (inp : RxInputs) (adapter : Port) (iwa : Iwa π) (skb : Skb) :
    List (Port × Skb) :=
  if skb.dest ≠ iwa.core.wfsId.byte ∧ iwa.link adapter.other = true then
    if inp.copy then ixgbeXmitWfsFrame iwa inp.ringFwd adapter.other skb else []
  else []

def sendCtrl (inp : RxInputs) (adapter : Port) (iwa : Iwa π) (pkt : Skb) : List (Port × Skb) :=
  if pkt.type = wfspktTypeCtrlNone then []
  else if pkt.type = wfspktTypeCtrlRaps ∧ iwa.link adapter.other = true then
    ixgbeXmitWfsFrame iwa inp.ringCtrl adapter.other pkt
  else if pkt.type = wfspktTypeCtrlBert ∧ iwa.link adapter = true then
    ixgbeXmitWfsFrame iwa inp.ringCtrl adapter pkt
  else []

/-- The frame after `wfs_process_raps` made it the own one. -/
def reoriginated (core : RapsCore) (pkt : Skb) (o : Nat) : Skb :=
  wfspktSetRapsDnf { pkt with
    hDest := Mac.broadcast, hSource := core.macAddr, dest := wfsidAll, src := core.wfsId.byte } o

def Skb.inner (skb : Skb) (i : Nat) : UInt8 := skb.bytes (skb.len.toNat + i)

def innerIp (b : Nat → UInt8) : UInt32 :=
  if be16 b 12 = ethP8021Q ∧ be16 b 16 = ethPIp then be32 b (18 + 12)
  else if be16 b 12 = ethPIp then be32 b (14 + 12)
  else 0

variable [EventStore π]

/-- `wfs_process_announce` on a received frame with the option at offset `o`. -/
def recvAnnounce (inp : RxInputs) (adapter : Port) (st : Station π) (pkt : Skb) (o : Nat) :
    Except Fault (Station π × Skb) :=
  match WfsId.ofByte? pkt.src with
  | none => .error .tableIndex
  | some src =>
    let (iwa, _) := wfsProcessAnnounce inp.k adapter src (announceAt pkt.opts o) st.iwa
    .ok ({ st with iwa }, { pkt with type := wfspktTypeCtrlNone })

/-- `wfs_process_raps` on a received frame with the option at offset `o`. -/
def recvRaps (inp : RxInputs) (adapter : Port) (st : Station π) (pkt : Skb) (o : Nat) :
    Except Fault (Station π × Skb) :=
  match WfsId.ofByte? pkt.src with
  | none => .error .tableIndex
  | some src =>
    let (iwa, _, verdict) := wfsProcessRaps inp.k adapter src (rapsAt pkt.opts o) st.iwa
    match verdict with
    | .ctrlNone => .ok ({ st with iwa }, { pkt with type := wfspktTypeCtrlNone })
    | .reoriginate => .ok ({ st with iwa }, reoriginated iwa.core pkt o)

/-- `ixgbe_wfs_recv_control`: the station and the frame after the handler of the first kind
    of option there is. -/
def ixgbeWfsRecvControl (inp : RxInputs) (adapter : Port) (st : Station π) (pkt : Skb) :
    Except Fault (Station π × Skb) := do
  match ← wfspktGetopt pkt wfsoptAnnounce with
  | some o => recvAnnounce inp adapter st pkt o
  | none =>
    match ← wfspktGetopt pkt wfsoptRaps with
    | some o => recvRaps inp adapter st pkt o
    | none =>
      match ← wfspktGetopt pkt wfsoptBert with
      | some o => do
        let (wfsbert, pkt) ← wfsProcessBert inp.bert st.iwa.core st.wfsbert pkt o
        pure ({ st with wfsbert }, pkt)
      | none => pure (st, pkt)

/-- `ixgbe_process_skb_fields` for a frame received on port `adapter`: the station, the
    frames sent and whether the inner frame goes on to the network stack. -/
def ixgbeProcessSkbFields (rb : Balancer Nat) (inp : RxInputs) (adapter : Port) (st : Station π)
    (skb : Skb) : Except Fault (Station π × List (Port × Skb) × Bool) :=
  if ixgbeWfsDecap skb = false then .ok (st, [], false)
  -- drop loop packet
  else if skb.src = st.iwa.core.wfsId.byte then .ok (st, [], false)
  else
    let fwd := forwardSkb inp adapter st.iwa skb
    -- drop unicast for other workstation
    if ¬skb.isFor st.iwa.core.wfsId then .ok (st, fwd, false)
    else if skb.isCtrl then do
      let (st, pkt) ← ixgbeWfsRecvControl inp adapter st skb
      pure (st, fwd ++ sendCtrl inp adapter st.iwa pkt, false)
    else do
      let fib ← st.fib.ixgbeWfsFibUpdate rb inp.key inp.kmalloc inp.kmalloc' skb.vlanTci
        (macAt skb.inner 6) (innerIp skb.inner) skb.src
      pure ({ st with fib }, fwd, true)

end Functions

end VmkDrivers.Wfs
