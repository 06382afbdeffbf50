import CProxy.Foundation.Run
import CProxy.Tunnel.Server
import CProxy.Tunnel.Client

/-! # Runs of a tunnel

Every event is one handler run to completion. Which handler comes next, how many
bytes a `splice` takes and which descriptors and identifiers are given out is open.
-/

namespace CProxy

open Foundation Wire

inductive Event where
  | newPublicConn (acceptFd : Fd)
  | newProxyConn (id : RandStr) (acceptFd : Fd)
  | serverProxyRead (id : RandStr) (count : Nat)
  | publicRead (id : RandStr) (bytes : List UInt8)
  | serverCtlRead
  | clientCtlRead (id : RandStr) (proxyFd localFd : Fd)
  | clientProxyRead (id : RandStr) (count : Nat) (localFd : Fd)
  | localRead (id : RandStr) (bytes : List UInt8)
  /-- A late or repeated FreeProxyConnReq reaches the server. -/
  | strayFreeReq (proxyId : Str)

/-- `accept` returns a positive `int` that is not open. -/
def Fresh (s : System) (acceptFd : Fd) : Prop :=
  0 < acceptFd ∧ acceptFd ≤ 2147483647 ∧ acceptFd ∉ s.accepted

instance (s : System) (acceptFd : Fd) : Decidable (Fresh s acceptFd) :=
  inferInstanceAs (Decidable (_ ∧ _ ∧ _))

variable (cfg : Config)

def step (s : System) : Event → Option System
  | .newPublicConn acceptFd =>
      if Fresh s acceptFd then some (Server.newPublicConnHandler s acceptFd) else none
  | .newProxyConn id acceptFd =>
      if Fresh s acceptFd ∧ id.chars ∈ s.clientProxyConnMap ∧ (s.link id).accepted = false then
        some (Server.newProxyConnHandler s id acceptFd)
      else none
  | .serverProxyRead id count => Server.proxyRead cfg s id count
  | .publicRead id bytes => Server.publicRead s id bytes
  | .serverCtlRead => Server.ctlRead s
  -- a successful `tcp_connect` returns a positive descriptor
  | .clientCtlRead id proxyFd localFd =>
      if 0 < proxyFd ∧ 0 < localFd then Client.ctlRead cfg s id proxyFd localFd else none
  | .clientProxyRead id count localFd =>
      if 0 < localFd then Client.proxyRead s id count localFd else none
  | .localRead id bytes => Client.localRead s id bytes
  | .strayFreeReq proxyId => some (Server.handleFreeProxyConnReq s proxyId)

/-- The steps in which every message comes from a handler. -/
def ownStep (s : System) : Event → Option System
  | .strayFreeReq _ => none
  | event => step cfg s event

/-- The states a tunnel can get into. -/
def Reachable (s : System) : Prop := ∃ events, run (step cfg) System.init events = some s

variable {cfg}

theorem Reachable.step {s s' : System} {event : Event} (hreach : Reachable cfg s)
    (hstep : CProxy.step cfg s event = some s') : Reachable cfg s' := by
  obtain ⟨events, hrun⟩ := hreach
  exact ⟨events ++ [event], (run_concat hrun event).trans hstep⟩

theorem step_of_ownStep {s s' : System} {event : Event}
    (hstep : ownStep cfg s event = some s') :
    step cfg s event = some s' ∧ ∀ proxyId, event ≠ .strayFreeReq proxyId := by
  cases event with
  | strayFreeReq proxyId => cases hstep
  | newPublicConn | newProxyConn | serverProxyRead | publicRead | serverCtlRead | clientCtlRead
  | clientProxyRead | localRead =>
      exact ⟨hstep, nofun⟩

/-! ## A sample tunnel -/

def sampleId : RandStr := ⟨[65, 66, 67, 68, 69], rfl, List.all_eq_true.mp rfl⟩

def sampleConfig : Config := ⟨sampleId, sampleId⟩

/-- The first public connection is served by a new proxy connection. -/
def sampleStart : List Event :=
  [.newPublicConn 5, .clientCtlRead sampleId 10 11, .newProxyConn sampleId 6,
    .serverProxyRead sampleId 1]

/-- The public side ends its stream, then the local side. -/
def sampleFinish : List Event :=
  [.publicRead sampleId [], .clientCtlRead sampleId 1 1, .localRead sampleId [], .serverCtlRead]

/-- The sample tunnel after the listed events. -/
def sampleAfter (events : List Event) : System :=
  (run (step sampleConfig) System.init events).getD System.init

theorem sampleAfter_reachable (events : List Event)
    (hrun : (run (step sampleConfig) System.init events).isSome = true) :
    Reachable sampleConfig (sampleAfter events) := by
  obtain ⟨final, hfinal⟩ := Option.isSome_iff_exists.mp hrun
  exact ⟨events, by rw [sampleAfter, hfinal, Option.getD_some]⟩

theorem sampleAfter_run (first second : List Event)
    (hrun : (run (step sampleConfig) System.init (first ++ second)).isSome = true) :
    run (step sampleConfig) (sampleAfter first) second = some (sampleAfter (first ++ second)) := by
  obtain ⟨final, hfinal⟩ := Option.isSome_iff_exists.mp hrun
  have hsplit := hfinal
  rw [run_append, Option.bind_eq_some_iff] at hsplit
  obtain ⟨middle, hmiddle, hrest⟩ := hsplit
  rw [sampleAfter, hmiddle, Option.getD_some, hrest, sampleAfter, hfinal, Option.getD_some]

end CProxy
