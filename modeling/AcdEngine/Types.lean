import Mathlib
/-!
# The data of address conflict detection

`acd.c` keeps one `struct acd` per IPv4 address under test, and talks to the
outside through ARP frames, the two diagnostic hooks of the TCP/IP Interface
Object and the user's conflict callback. This module holds that data: the
addresses and the ARP header, the context record, what one context can do to
the outside (`Action`), and the build's timing configuration together with the
macros that turn it into timer ticks.

The build modelled is the one with `CONFIG_OPENER_ACD_CUSTOM_TIMING`: without
it `ACD_PERIODIC_DEFEND_INTERVAL_TICKS` is not defined and `acd_tmr` does not
compile.
-/

namespace AcdEngine

/-- `ip4_addr_t`, as the host-order value of the dotted quad. -/
structure Ip4Addr where
  addr : UInt32
  deriving DecidableEq, Repr

namespace Ip4Addr

/-- `ip4_addr_isany_val`: the address is `IPADDR_ANY` (0.0.0.0). -/
def IsAny (a : Ip4Addr) : Prop := a.addr = 0

instance (a : Ip4Addr) : Decidable a.IsAny := inferInstanceAs (Decidable (_ = _))

/-- `ip4_addr_islinklocal`: the address is in 169.254.0.0/16. -/
def IsLinkLocal (a : Ip4Addr) : Prop := a.addr &&& 0xffff0000 = 0xa9fe0000

instance (a : Ip4Addr) : Decidable a.IsLinkLocal := inferInstanceAs (Decidable (_ = _))

end Ip4Addr

/-- `struct eth_addr`: `ETH_HWADDR_LEN` bytes. -/
structure EthAddr where
  addr : List UInt8
  length_eq : addr.length = 6
  deriving DecidableEq, Repr

/-- `struct etharp_hdr`, the ARP header that `etharp_input` hands to
`acd_arp_reply`. acd.c reads the sender's hardware and IP address and the
target IP address; the whole header is what it passes to
`CipTcpIpSetLastAcdRawData`. -/
structure EtharpHdr where
  hwtype : UInt16
  proto : UInt16
  hwlen : UInt8
  protolen : UInt8
  opcode : UInt16
  shwaddr : EthAddr
  sipaddr : Ip4Addr
  dhwaddr : EthAddr
  dipaddr : Ip4Addr
  deriving DecidableEq, Repr

/-- `acd_state_enum_t`. -/
inductive AcdState where
  | off
  | probeWait
  | probing
  | announceWait
  | announcing
  | ongoing
  | passiveOngoing
  | rateLimit
  deriving DecidableEq, Repr

/-- `acd_callback_enum_t`: what the conflict callback is told. -/
inductive AcdCallbackEnum where
  | ipOk
  | restartClient
  | decline
  deriving DecidableEq, Repr

/-- Modelled from the spec: `struct acd` (lwip/acd.h) is not under src/. These
are the fields acd.c reads and writes, each a `u16` as the spec's data model
has them. Its `next` field is the order of `Netif.acdList` (`Registry` models it
as a pointer), and its callback is the `Action.callback` a context emits. -/
structure Acd where
  ipaddr : Ip4Addr
  state : AcdState
  sentNum : Nat
  ttw : Nat
  lastconflict : Nat
  numConflicts : Nat
  deriving DecidableEq, Repr

/-- A context before its first `acd_start`: the zeroed struct its owner
allocates, in `ACD_STATE_OFF`. -/
def Acd.zero : Acd := ⟨⟨0⟩, .off, 0, 0, 0, 0⟩

/-- What one context does to the outside world during one engine call. -/
inductive Action where
  /-- `etharp_acd_probe(netif, &acd->ipaddr)`: an ARP probe from 0.0.0.0. -/
  | etharpAcdProbe (ipaddr : Ip4Addr)
  /-- `etharp_acd_announce(netif, &acd->ipaddr)`: a gratuitous ARP. -/
  | etharpAcdAnnounce (ipaddr : Ip4Addr)
  /-- `CipTcpIpSetLastAcdMac(hdr->shwaddr.addr)`. -/
  | cipTcpIpSetLastAcdMac (mac : EthAddr)
  /-- `CipTcpIpSetLastAcdRawData((const uint8_t *)hdr, sizeof(struct etharp_hdr))`. -/
  | cipTcpIpSetLastAcdRawData (hdr : EtharpHdr)
  /-- `acd->acd_conflict_callback(netif, msg)`. -/
  | callback (msg : AcdCallbackEnum)
  deriving DecidableEq, Repr

/-- An ARP probe or announce sent on the wire. -/
def Action.isSend : Action → Bool
  | .etharpAcdProbe _ | .etharpAcdAnnounce _ => true
  | _ => false

/-- The outcome, if the action is a callback. -/
def Action.callbackMsg? : Action → Option AcdCallbackEnum
  | .callback msg => some msg
  | _ => none

@[simp] theorem Action.isSend_etharpAcdProbe (ip : Ip4Addr) : (etharpAcdProbe ip).isSend = true := rfl

@[simp] theorem Action.isSend_etharpAcdAnnounce (ip : Ip4Addr) :
    (etharpAcdAnnounce ip).isSend = true := rfl

@[simp] theorem Action.isSend_cipTcpIpSetLastAcdMac (mac : EthAddr) :
    (cipTcpIpSetLastAcdMac mac).isSend = false := rfl

@[simp] theorem Action.isSend_cipTcpIpSetLastAcdRawData (hdr : EtharpHdr) :
    (cipTcpIpSetLastAcdRawData hdr).isSend = false := rfl

@[simp] theorem Action.isSend_callback (msg : AcdCallbackEnum) : (callback msg).isSend = false := rfl

@[simp] theorem Action.callbackMsg?_callback (msg : AcdCallbackEnum) :
    (callback msg).callbackMsg? = some msg := rfl

@[simp] theorem Action.callbackMsg?_etharpAcdProbe (ip : Ip4Addr) :
    (etharpAcdProbe ip).callbackMsg? = none := rfl

@[simp] theorem Action.callbackMsg?_etharpAcdAnnounce (ip : Ip4Addr) :
    (etharpAcdAnnounce ip).callbackMsg? = none := rfl

@[simp] theorem Action.callbackMsg?_cipTcpIpSetLastAcdMac (mac : EthAddr) :
    (cipTcpIpSetLastAcdMac mac).callbackMsg? = none := rfl

@[simp] theorem Action.callbackMsg?_cipTcpIpSetLastAcdRawData (hdr : EtharpHdr) :
    (cipTcpIpSetLastAcdRawData hdr).callbackMsg? = none := rfl

/-- Conversion to `u16_t`. -/
def u16 (n : Nat) : Nat := n % 2 ^ 16

@[simp] theorem u16_of_lt {n : Nat} (h : n < 2 ^ 16) : u16 n = n := Nat.mod_eq_of_lt h

theorem u16_lt (n : Nat) : u16 n < 2 ^ 16 := Nat.mod_lt _ (Nat.two_pow_pos _)

/-- The build's configuration. `acdTmrInterval` is `ACD_TMR_INTERVAL`; the
millisecond values, `probeNum`, `announceNum` and the optional
`periodicDefendIntervalMs` are the `CONFIG_OPENER_ACD_*` Kconfig values; and
`maxConflicts`, `rateLimitInterval` and `defendInterval` are lwIP's
`MAX_CONFLICTS`, `RATE_LIMIT_INTERVAL` and `DEFEND_INTERVAL` (seconds, from
lwip/prot/acd.h, not under src/). The rate-limit and defend intervals in ticks
are stored in `u16` fields and fit them in lwIP, where they are 60 s and
10 s at no more than 1000 ticks a second. -/
structure Config where
  acdTmrInterval : Nat
  probeWaitMs : Nat
  probeMinMs : Nat
  probeMaxMs : Nat
  probeNum : Nat
  announceNum : Nat
  announceWaitMs : Nat
  announceIntervalMs : Nat
  periodicDefendIntervalMs : Option Nat
  maxConflicts : Nat
  rateLimitInterval : Nat
  defendInterval : Nat
  acdTmrInterval_pos : 0 < acdTmrInterval
  rateLimit_lt : rateLimitInterval * (1000 / acdTmrInterval) < 2 ^ 16
  defend_lt : defendInterval * (1000 / acdTmrInterval) < 2 ^ 16

namespace Config

variable (cfg : Config)

/-- `ACD_TICKS_PER_SECOND`. -/
def acdTicksPerSecond : Nat := 1000 / cfg.acdTmrInterval

/-- `OPENER_ACD_MS_TO_TICKS`: milliseconds to ticks, rounding up, as a `u16_t`. -/
def msToTicks (ms : Nat) : Nat :=
  if ms = 0 then 0 else u16 ((ms + (cfg.acdTmrInterval - 1)) / cfg.acdTmrInterval)

/-- `OPENER_ACD_PROBE_WAIT_TICKS`. -/
def probeWaitTicks : Nat := cfg.msToTicks cfg.probeWaitMs

/-- `OPENER_ACD_PROBE_MIN_TICKS`. -/
def probeMinTicks : Nat := cfg.msToTicks cfg.probeMinMs

/-- `OPENER_ACD_PROBE_MAX_TICKS`. -/
def probeMaxTicks : Nat := cfg.msToTicks cfg.probeMaxMs

/-- `ACD_RANDOM_PROBE_WAIT`, where `rand` is the value `LWIP_ACD_RAND` returned. -/
def acdRandomProbeWait (rand : Nat) : Nat :=
  if cfg.probeWaitMs = 0 then 0
  else rand % (if cfg.probeWaitTicks > 0 then cfg.probeWaitTicks else 1)

/-- `ACD_RANDOM_PROBE_INTERVAL`, where `rand` is the value `LWIP_ACD_RAND` returned. -/
def acdRandomProbeInterval (rand : Nat) : Nat :=
  if cfg.probeMaxTicks > cfg.probeMinTicks then
    rand % (cfg.probeMaxTicks - cfg.probeMinTicks) + cfg.probeMinTicks
  else cfg.probeMinTicks

/-- `ACD_ANNOUNCE_WAIT_TICKS_VALUE`. -/
def acdAnnounceWaitTicksValue : Nat := cfg.msToTicks cfg.announceWaitMs

/-- `ACD_ANNOUNCE_INTERVAL_TICKS_VALUE`. -/
def acdAnnounceIntervalTicksValue : Nat :=
  if cfg.msToTicks cfg.announceIntervalMs > 0 then cfg.msToTicks cfg.announceIntervalMs else 1

/-- `ACD_PERIODIC_DEFEND_INTERVAL_TICKS`. -/
def acdPeriodicDefendIntervalTicks : Nat :=
  match cfg.periodicDefendIntervalMs with
  | some ms => cfg.msToTicks ms
  | none => cfg.defendInterval * cfg.acdTicksPerSecond

/-- The guard of the periodic probe in `acd_tmr`'s `ONGOING` branch besides
`ttw == 0`: `CONFIG_OPENER_ACD_PERIODIC_DEFEND_INTERVAL_MS > 0` when that
option is set, nothing otherwise. -/
def periodicDefendOn : Bool :=
  match cfg.periodicDefendIntervalMs with
  | some ms => decide (0 < ms)
  | none => true

/-- `RATE_LIMIT_INTERVAL * ACD_TICKS_PER_SECOND`. -/
def rateLimitTicks : Nat := cfg.rateLimitInterval * cfg.acdTicksPerSecond

/-- `DEFEND_INTERVAL * ACD_TICKS_PER_SECOND`. -/
def defendTicks : Nat := cfg.defendInterval * cfg.acdTicksPerSecond

theorem msToTicks_lt (ms : Nat) : cfg.msToTicks ms < 2 ^ 16 := by
  unfold msToTicks; split
  · exact Nat.two_pow_pos _
  · exact u16_lt _

theorem rateLimitTicks_lt : cfg.rateLimitTicks < 2 ^ 16 := cfg.rateLimit_lt

theorem defendTicks_lt : cfg.defendTicks < 2 ^ 16 := cfg.defend_lt

theorem acdAnnounceIntervalTicksValue_pos : 0 < cfg.acdAnnounceIntervalTicksValue := by
  unfold acdAnnounceIntervalTicksValue; split <;> omega

theorem acdPeriodicDefendIntervalTicks_lt : cfg.acdPeriodicDefendIntervalTicks < 2 ^ 16 := by
  unfold acdPeriodicDefendIntervalTicks
  split
  · exact cfg.msToTicks_lt _
  · exact cfg.defend_lt

end Config

/-- The configuration of the spec's scenarios: 100 ms ticks, RFC 5227 timing
without an initial probe wait, lwIP's limits, and the periodic probe every
`DEFEND_INTERVAL`. -/
def specConfig : Config where
  acdTmrInterval := 100
  probeWaitMs := 0
  probeMinMs := 1000
  probeMaxMs := 2000
  probeNum := 3
  announceNum := 2
  announceWaitMs := 2000
  announceIntervalMs := 2000
  periodicDefendIntervalMs := none
  maxConflicts := 10
  rateLimitInterval := 60
  defendInterval := 10
  acdTmrInterval_pos := by decide
  rateLimit_lt := by decide
  defend_lt := by decide

end AcdEngine
