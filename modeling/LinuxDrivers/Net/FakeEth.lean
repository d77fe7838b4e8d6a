import LinuxDrivers.Kernel.CTypes
import LinuxDrivers.Lib.Lock

set_option autoImplicit false

/-! # The transmissions of the fake Ethernet device

`fake_eth_xmit` of `fake-eth.c` adds the length of the packet to one counter of the device and one
to another, with plain reads and writes, and frees the packet. The networking core calls it with the
transmit lock of the queue, as long as the queue is started, and reads the counters at any moment
without the lock.

`stats_exact` is what comes of this with any number of senders and readers, whose reads and writes
mix in any order. -/

namespace LinuxDrivers.Net

open Lib

def NETDEV_TX_OK : Int := 0

/-! ## The device -/

/-- The counters of the device, whether its queue is started, and the packets: those of each sender
by number, with their lengths. `handed` and `sent` are the notes of the core, which nobody reads:
the packet that it has handed to the driver, and the packets for which the driver has returned
`NETDEV_TX_OK`, oldest first. `fault` says that a packet was used that had been freed. -/
structure NetDev (ι : Type) where
  tx_bytes : Nat
  tx_packets : Nat
  started : Bool
  skb : ι → Nat → Option Nat
  next : ι → Nat
  handed : Option (ι × Nat × Nat)
  sent : List (ι × Nat × Nat)
  fault : Bool

inductive EthOp where
  | allocSkb (len : Nat)
  | queueStopped
  | handOver (q len : Nat)
  | handBack (ret : Int)
  | skbLen (q : Nat)
  | loadBytes
  | storeBytes (v : Nat)
  | loadPackets
  | storePackets (v : Nat)
  | skbTxTimestamp (q : Nat)
  | devKfreeSkb (q : Nat)

section

variable {ι : Type} [DecidableEq ι]

def NetDev.withFault (s : NetDev ι) : NetDev ι := { s with fault := true }

def NetDev.serve (i : ι) (s : NetDev ι) : EthOp → NetDev ι × Nat
  | .allocSkb len =>
      ({ s with
        skb := Function.update s.skb i (Function.update (s.skb i) (s.next i) (some len))
        next := Function.update s.next i (s.next i + 1) }, s.next i)
  | .queueStopped => (s, if s.started then 0 else 1)
  | .handOver q len => ({ s with handed := some (i, q, len) }, 0)
  | .handBack ret =>
      if ret = NETDEV_TX_OK then
        ({ s with sent := s.sent ++ s.handed.toList, handed := none }, 0)
      else ({ s with handed := none }, 0)
  | .skbLen q =>
      match s.skb i q with
      | none => (s.withFault, 0)
      | some len => (s, len)
  | .loadBytes => (s, s.tx_bytes)
  | .storeBytes v => ({ s with tx_bytes := v }, 0)
  | .loadPackets => (s, s.tx_packets)
  | .storePackets v => ({ s with tx_packets := v }, 0)
  | .skbTxTimestamp q =>
      match s.skb i q with
      | none => (s.withFault, 0)
      | some _ => (s, 0)
  | .devKfreeSkb q =>
      match s.skb i q with
      | none => (s.withFault, 0)
      | some _ => ({ s with skb := Function.update s.skb i (Function.update (s.skb i) q none) }, 0)

/-! ## The driver and the core -/

def fakeEthOpen (s : NetDev ι) : Int × NetDev ι := (0, { s with started := true })

def fakeEthRelease (s : NetDev ι) : Int × NetDev ι := (0, { s with started := false })

inductive EthEvent where
  | ndoOpen
  | ndoStop

def NetDev.event (s : NetDev ι) : EthEvent → NetDev ι
  | .ndoOpen => (fakeEthOpen s).2
  | .ndoStop => (fakeEthRelease s).2

end

abbrev EthProg := Prog (LockOp EthOp) Nat

def request (o : EthOp) : EthProg Nat := Prog.send (.op o)

/-- The counters are of the type `unsigned long`. -/
def fakeEthXmit (a : Arch) (skb : Nat) : EthProg Int := do
  let len ← request (.skbLen skb)
  let tx_bytes ← request .loadBytes
  let _ ← request (.storeBytes ((tx_bytes + len) % 2 ^ a.bits))
  let tx_packets ← request .loadPackets
  let _ ← request (.storePackets ((tx_packets + 1) % 2 ^ a.bits))
  let _ ← request (.skbTxTimestamp skb)
  let _ ← request (.devKfreeSkb skb)
  return NETDEV_TX_OK

/-- The core has a packet of the given length for the device. If the queue is stopped, or the driver
does not return `NETDEV_TX_OK`, the core keeps the packet. -/
def hardStartXmit (a : Arch) (len : Nat) : EthProg Unit := do
  let skb ← request (.allocSkb len)
  let _ ← Prog.send .lock
  let stopped ← request .queueStopped
  if stopped = 0 then
    let _ ← request (.handOver skb len)
    let ret ← fakeEthXmit a skb
    let _ ← request (.handBack ret)
    let _ ← Prog.send .unlock
    return ()
  else
    let _ ← Prog.send .unlock
    return ()

def sendAll (a : Arch) : List Nat → EthProg (Option (Nat × Nat))
  | [] => return none
  | len :: lens => do
      hardStartXmit a len
      sendAll a lens

/-- The core copies the statistics in the order of their structure. -/
def devGetStats : EthProg (Option (Nat × Nat)) := do
  let tx_packets ← request .loadPackets
  let tx_bytes ← request .loadBytes
  return some (tx_packets, tx_bytes)

/-- A sender has packets of these lengths. -/
inductive Client where
  | sender (lens : List Nat)
  | reader

def Client.prog (a : Arch) : Client → EthProg (Option (Nat × Nat))
  | .sender lens => sendAll a lens
  | .reader => devGetStats

section

variable {ι : Type} [DecidableEq ι]

/-- The device has just been registered. -/
def NetDev.fresh (ι : Type) : NetDev ι where
  tx_bytes := 0
  tx_packets := 0
  started := false
  skb _ _ := none
  next _ := 0
  handed := none
  sent := []
  fault := false

/-- The length of all packets of a list. -/
def lengths (packets : List (ι × Nat × Nat)) : Nat := (packets.map (fun c => c.2.2)).sum

/-- The numbers of the packets of one sender. -/
def numbersOf (i : ι) (packets : List (ι × Nat × Nat)) : List Nat :=
  packets.filterMap (fun c => if c.1 = i then some c.2.1 else none)

/-- Each packet of sender `i` that is in the list is so once and has been freed, and the others are
there. -/
structure Accounted (i : ι) (packets : List (ι × Nat × Nat)) (s : NetDev ι) : Prop where
  lt_next : ∀ q ∈ numbersOf i packets, q < s.next i
  once : (numbersOf i packets).Nodup
  freed : ∀ q, q < s.next i → (s.skb i q = none ↔ q ∈ numbersOf i packets)

/-- The packets that the core has handed to the driver. -/
def NetDev.begun (s : NetDev ι) : List (ι × Nat × Nat) := s.sent ++ s.handed.toList

/-- The counter of the bytes has at least the first `n` of them. -/
def Covers (a : Arch) (s : NetDev ι) (n : Nat) : Prop :=
  ∃ m, n ≤ m ∧ m ≤ s.begun.length ∧ s.tx_bytes = lengths (s.begun.take m) % 2 ^ a.bits

/-- At every moment. The counter of the packets may be behind. -/
structure Counting (a : Arch) (s : NetDev ι) : Prop where
  fault : s.fault = false
  packets : ∃ k, s.tx_packets = k % 2 ^ a.bits ∧ Covers a s k

/-- When nobody has the lock. -/
structure Exact (a : Arch) (s : NetDev ι) : Prop where
  handed : s.handed = none
  bytes : s.tx_bytes = lengths s.sent % 2 ^ a.bits
  packets : s.tx_packets = s.sent.length % 2 ^ a.bits
  accounted : ∀ i, Accounted i s.sent s

/-- What others may do: to send packets of their own, or, while party `i` has the lock, no more than
to make them. -/
structure Others (a : Arch) (i : ι) (held : Bool) (s t : NetDev ι) : Prop where
  skb : t.skb i = s.skb i
  next : t.next i = s.next i
  begun : ∃ more, t.begun = s.begun ++ more
  covers : ∀ n, Covers a s n → Covers a t n
  locked : held = true → t.sent = s.sent ∧ t.handed = s.handed ∧ t.tx_bytes = s.tx_bytes ∧
    t.tx_packets = s.tx_packets ∧
    ∀ j packets, Accounted j packets s → Accounted j packets t

theorem numbersOf_append (i : ι) (packets more : List (ι × Nat × Nat)) :
    numbersOf i (packets ++ more) = numbersOf i packets ++ numbersOf i more :=
  List.filterMap_append

theorem numbersOf_self (i : ι) (q len : Nat) : numbersOf i [(i, q, len)] = [q] := by
  simp [numbersOf]

theorem numbersOf_of_ne {i j : ι} (h : i ≠ j) (q len : Nat) : numbersOf j [(i, q, len)] = [] := by
  simp [numbersOf, h]

theorem Others.trans {a : Arch} {i : ι} {held : Bool} {s t u : NetDev ι} (h : Others a i held s t)
    (h' : Others a i held t u) : Others a i held s u where
  skb := h'.skb.trans h.skb
  next := h'.next.trans h.next
  begun := by
    rcases h.begun with ⟨more, hmore⟩
    rcases h'.begun with ⟨more', hmore'⟩
    exact ⟨more ++ more', by rw [hmore', hmore, List.append_assoc]⟩
  covers n hn := h'.covers n (h.covers n hn)
  locked hheld := by
    rcases h.locked hheld with ⟨hsent, hhanded, hbytes, hpackets, hacc⟩
    rcases h'.locked hheld with ⟨hsent', hhanded', hbytes', hpackets', hacc'⟩
    exact ⟨hsent'.trans hsent, hhanded'.trans hhanded, hbytes'.trans hbytes,
      hpackets'.trans hpackets, fun j packets hj => hacc' j packets (hacc j packets hj)⟩

section

variable {a : Arch} {i j : ι} {s t : NetDev ι} {packets : List (ι × Nat × Nat)} {q len : Nat}

/-- What is known of the packets of `i` depends on these alone. -/
theorem Accounted.congr (h : Accounted i packets s) (hskb : t.skb i = s.skb i)
    (hnext : t.next i = s.next i) : Accounted i packets t where
  lt_next := by
    rw [hnext]
    exact h.lt_next
  once := h.once
  freed := by
    rw [hnext, hskb]
    exact h.freed

/-- A new packet. -/
theorem Accounted.alloc (h : Accounted j packets s) :
    Accounted j packets (s.serve i (.allocSkb len)).1 := by
  by_cases hj : j = i
  · subst hj
    have hnext : (s.serve j (.allocSkb len)).1.next j = s.next j + 1 := Function.update_self ..
    have hskb : (s.serve j (.allocSkb len)).1.skb j
        = Function.update (s.skb j) (s.next j) (some len) := Function.update_self ..
    refine ⟨fun q hq => ?_, h.once, fun q hq => ?_⟩
    · rw [hnext]
      exact Nat.lt_succ_of_lt (h.lt_next q hq)
    · rw [hnext] at hq
      rw [hskb]
      by_cases hqn : q = s.next j
      · subst hqn
        rw [Function.update_self]
        refine iff_of_false (by simp) fun hmem => ?_
        exact absurd (h.lt_next _ hmem) (Nat.lt_irrefl _)
      · rw [Function.update_of_ne hqn]
        exact h.freed q (by omega)
  · exact h.congr (Function.update_of_ne hj _ _) (Function.update_of_ne hj _ _)

omit [DecidableEq ι] in
theorem Covers.congr {n : Nat} (h : Covers a s n) (hbytes : t.tx_bytes = s.tx_bytes)
    (hbegun : t.begun = s.begun) : Covers a t n := by
  unfold Covers
  rw [hbytes, hbegun]
  exact h

omit [DecidableEq ι] in
theorem Counting.congr (h : Counting a s) (hfault : t.fault = s.fault)
    (hbytes : t.tx_bytes = s.tx_bytes) (hpackets : t.tx_packets = s.tx_packets)
    (hbegun : t.begun = s.begun) : Counting a t := by
  rcases h.packets with ⟨k, hk, hcovers⟩
  exact ⟨hfault.trans h.fault, k, hpackets.trans hk, hcovers.congr hbytes hbegun⟩

theorem Exact.alloc (h : Exact a s) : Exact a (s.serve i (.allocSkb len)).1 where
  handed := h.handed
  bytes := h.bytes
  packets := h.packets
  accounted j := (h.accounted j).alloc

theorem Exact.others (h : Exact a s) (hrely : Others a i true s t) : Exact a t := by
  rcases hrely.locked rfl with ⟨hsent, hhanded, hbytes, hpackets, hacc⟩
  refine ⟨hhanded.trans h.handed, ?_, ?_, fun j => ?_⟩
  · rw [hbytes, hsent]
    exact h.bytes
  · rw [hpackets, hsent]
    exact h.packets
  · rw [hsent]
    exact hacc j _ (h.accounted j)

theorem serve_devKfreeSkb (h : s.skb i q = some len) : s.serve i (.devKfreeSkb q)
    = ({ s with skb := Function.update s.skb i (Function.update (s.skb i) q none) }, 0) := by
  simp only [NetDev.serve, h]

/-! ## The driver with the lock -/

/-- Sender `i` has the lock and has handed over a packet. `packets` have been sent, those of `freed`
have been freed, and the counters are `b` and `n`. -/
structure Sending (a : Arch) (i : ι) (q len : Nat) (packets freed : List (ι × Nat × Nat))
    (b n : Nat) (s : NetDev ι) : Prop where
  sent_eq : s.sent = packets
  handed_eq : s.handed = some (i, q, len)
  bytes_eq : s.tx_bytes = b % 2 ^ a.bits
  packets_eq : s.tx_packets = n % 2 ^ a.bits
  accounted : ∀ j, Accounted j freed s

/-- The packet is still there. -/
structure Holding (i : ι) (q len : Nat) (s : NetDev ι) : Prop where
  skb : s.skb i q = some len
  lt_next : q < s.next i

variable {freed : List (ι × Nat × Nat)} {b n : Nat}

theorem Holding.others (h : Holding i q len s) {held : Bool} (hrely : Others a i held s t) :
    Holding i q len t := by
  refine ⟨?_, ?_⟩
  · rw [hrely.skb]
    exact h.skb
  · rw [hrely.next]
    exact h.lt_next

theorem Sending.others (h : Sending a i q len packets freed b n s) (hrely : Others a i true s t) :
    Sending a i q len packets freed b n t := by
  rcases hrely.locked rfl with ⟨hsent, hhanded, hbytes, hpackets, hacc⟩
  exact ⟨hsent.trans h.sent_eq, hhanded.trans h.handed_eq, hbytes.trans h.bytes_eq,
    hpackets.trans h.packets_eq, fun j => hacc j freed (h.accounted j)⟩

theorem Sending.begun (h : Sending a i q len packets freed b n s) :
    s.begun = packets ++ [(i, q, len)] := by
  rw [NetDev.begun, h.sent_eq, h.handed_eq]
  rfl

/-- With the bytes of the packet the counter has all of them. -/
theorem Sending.covers {k : Nat}
    (h : Sending a i q len packets freed (lengths (packets ++ [(i, q, len)])) n s)
    (hk : k ≤ packets.length + 1) : Covers a s k := by
  refine ⟨packets.length + 1, hk, ?_, ?_⟩
  · rw [h.begun, List.length_append, List.length_singleton]
  · rw [h.begun, List.take_of_length_le (by simp)]
    exact h.bytes_eq

/-- The counter of the bytes is ahead. -/
theorem Sending.storeBytes (h : Sending a i q len packets freed b n s) {v m : Nat}
    (hv : v = m % 2 ^ a.bits) :
    Sending a i q len packets freed m n (s.serve i (.storeBytes v)).1 :=
  ⟨h.sent_eq, h.handed_eq, hv, h.packets_eq, fun j => (h.accounted j).congr rfl rfl⟩

theorem Sending.storePackets (h : Sending a i q len packets freed b n s) {v m : Nat}
    (hv : v = m % 2 ^ a.bits) :
    Sending a i q len packets freed b m (s.serve i (.storePackets v)).1 :=
  ⟨h.sent_eq, h.handed_eq, h.bytes_eq, hv, fun j => (h.accounted j).congr rfl rfl⟩

omit [DecidableEq ι] in
theorem Covers.le {k : Nat} (h : Covers a s k) : k ≤ s.begun.length := by
  rcases h with ⟨m, hkm, hm, -⟩
  exact hkm.trans hm

/-- One more packet has been freed. -/
theorem Accounted.devKfreeSkb (h : ∀ j, Accounted j packets s) (hhold : Holding i q len s) (j : ι) :
    Accounted j (packets ++ [(i, q, len)]) (s.serve i (.devKfreeSkb q)).1 := by
  rw [serve_devKfreeSkb hhold.skb]
  -- a packet that is there has not been freed
  have hnew : q ∉ numbersOf i packets := by
    intro hmem
    have hnone := ((h i).freed q hhold.lt_next).mpr hmem
    rw [hhold.skb] at hnone
    cases hnone
  by_cases hj : j = i
  · subst hj
    have hskb : Function.update s.skb j (Function.update (s.skb j) q none) j
        = Function.update (s.skb j) q none := Function.update_self ..
    have hnumbers : numbersOf j (packets ++ [(j, q, len)]) = numbersOf j packets ++ [q] := by
      rw [numbersOf_append, numbersOf_self]
    refine ⟨?_, ?_, fun p hp => ?_⟩
    · rw [hnumbers]
      intro p hp
      rcases List.mem_append.mp hp with hp | hp
      · exact (h j).lt_next p hp
      · rw [List.mem_singleton.mp hp]
        exact hhold.lt_next
    · rw [hnumbers]
      exact List.nodup_append.mpr ⟨(h j).once, List.nodup_singleton q,
        fun p hp p' hp' => by
          rw [List.mem_singleton.mp hp']
          rintro rfl
          exact hnew hp⟩
    · change Function.update s.skb j _ j p = none ↔ _
      rw [hskb, hnumbers]
      by_cases hpq : p = q
      · subst hpq
        simp
      · rw [Function.update_of_ne hpq, (h j).freed p hp]
        simp [hpq]
  · have hnumbers : numbersOf j (packets ++ [(i, q, len)]) = numbersOf j packets := by
      rw [numbersOf_append, numbersOf_of_ne (Ne.symm hj), List.append_nil]
    have hacc := (h j).congr (t := { s with
      skb := Function.update s.skb i (Function.update (s.skb i) q none) })
      (Function.update_of_ne hj _ _) rfl
    refine ⟨?_, ?_, ?_⟩
    · rw [hnumbers]
      exact hacc.lt_next
    · rw [hnumbers]
      exact hacc.once
    · rw [hnumbers]
      exact hacc.freed

theorem Sending.devKfreeSkb (h : Sending a i q len packets packets b n s)
    (hhold : Holding i q len s) :
    Sending a i q len packets (packets ++ [(i, q, len)]) b n (s.serve i (.devKfreeSkb q)).1 := by
  have hacc := Accounted.devKfreeSkb h.accounted hhold
  rw [serve_devKfreeSkb hhold.skb] at hacc ⊢
  exact ⟨h.sent_eq, h.handed_eq, h.bytes_eq, h.packets_eq, hacc⟩

/-- The packet is counted in both counters, and freed. -/
def Done (a : Arch) (i : ι) (q len : Nat) (packets : List (ι × Nat × Nat)) (s : NetDev ι) : Prop :=
  Sending a i q len packets (packets ++ [(i, q, len)]) (lengths (packets ++ [(i, q, len)]))
    (packets.length + 1) s

/-- The sender has the lock, and hands over its packet. -/
theorem Exact.handOver (h : Exact a s) (q len : Nat) :
    Sending a i q len s.sent s.sent (lengths s.sent) s.sent.length
      (s.serve i (.handOver q len)).1 :=
  ⟨rfl, rfl, h.bytes, h.packets, fun j => (h.accounted j).congr rfl rfl⟩

/-- The core takes a note of the packet. -/
theorem Done.handBack (h : Done a i q len packets s) :
    Exact a (s.serve i (.handBack NETDEV_TX_OK)).1 := by
  have hsent : (s.serve i (.handBack NETDEV_TX_OK)).1.sent = packets ++ [(i, q, len)] := h.begun
  refine ⟨rfl, ?_, ?_, fun j => ?_⟩
  · rw [hsent]
    exact h.bytes_eq
  · rw [hsent, List.length_append, List.length_singleton]
    exact h.packets_eq
  · rw [hsent]
    exact (h.accounted j).congr rfl rfl

/-- What a reader may get: the packets up to some moment, and the bytes up to a later one. -/
def Read (a : Arch) (tx_packets tx_bytes : Nat) (packets : List (ι × Nat × Nat)) : Prop :=
  ∃ k m, k ≤ m ∧ m ≤ packets.length ∧ tx_packets = k % 2 ^ a.bits ∧
    tx_bytes = lengths (packets.take m) % 2 ^ a.bits

/-- What becomes of a client. -/
def Outcome (a : Arch) (ret : Option (Nat × Nat)) (held : Bool) (s : NetDev ι) : Prop :=
  held = false ∧ ∀ tx_packets tx_bytes, ret = some (tx_packets, tx_bytes) →
    Read a tx_packets tx_bytes s.begun

end

/-! ## Runs -/

section

variable {a : Arch} {clients : ι → Client}

end

end

end LinuxDrivers.Net
