import TntPub.Answers

namespace TntPub

open Framing Broadcast

/-- `PubCopy::onMessageReceived` as far as it uses its client. -/
def PubCopy.onMessageReceived (topicOut : Bytes) : Reaction := fun dm =>
  [(.sendMessage { dm with topic := { main := topicOut } }, [])]

def PubDelay.onMessageReceived : Reaction := fun _ => []

/-- Two programs that subscribe to a topic and print each second how many messages they were
given. A `pubCopy` sends the messages to another topic. -/
inductive Simulator
  | pubCopy (topicIn topicOut : Bytes)
  | pubDelay (topic : Bytes)
deriving DecidableEq

namespace Simulator

def topicIn : Simulator → Bytes
  | pubCopy topicIn _ => topicIn
  | pubDelay topic => topic

def onMessageReceived : Simulator → Reaction
  | pubCopy _ topicOut => PubCopy.onMessageReceived topicOut
  | pubDelay _ => PubDelay.onMessageReceived

/-- What a program is to send when these messages are published. -/
def forwarded : Simulator → List DataMessage → List DataMessage
  | pubCopy _ topicOut, ms => ms.map fun dm => { dm with topic := { main := topicOut } }
  | pubDelay _, _ => []

theorem replies_eq (p : Simulator) (ms : List DataMessage) :
    Client.replies p.onMessageReceived ms = p.forwarded ms := by
  cases p with
  | pubDelay topic =>
    simp [Client.replies, onMessageReceived, PubDelay.onMessageReceived, forwarded]
  | pubCopy topicIn topicOut =>
    induction ms with
    | nil => rfl
    | cons m ms ih =>
      show _ :: Client.replies _ ms = _ :: forwarded (pubCopy topicIn topicOut) ms
      rw [ih]

theorem forwarded_prefix (p : Simulator) {ms ns : List DataMessage} (h : ms <+: ns) :
    p.forwarded ms <+: p.forwarded ns := by
  cases p with
  | pubDelay topic => exact List.prefix_rfl
  | pubCopy topicIn topicOut => exact h.map _

end Simulator

/-- A program with what it has printed, without the delays, which come from the clock. It has
`running` set until `exit` of its event loop is called or an exception leaves the loop. -/
structure Process where
  program : Simulator
  started : Bool := false
  running : Bool := true
  count : UInt32 := 0
  printed : List UInt32 := []

namespace Process

def onTimeout (p : Process) : Process :=
  if p.count > 0 then { p with printed := p.printed ++ [p.count], count := 0 } else p

def stopped (p : Process) : Process := { p with running := false }

def onClosed (p : Process) : Process := p.onTimeout.stopped

/-- `++_count` for each message whose slot returns. -/
def received (p : Process) (ms : List DataMessage) : Process :=
  ms.foldl (fun p _ => { p with count := p.count + 1 }) p

def after (p : Process) : Aftermath → Process
  | .goesOn => p
  | .closed => p.onClosed
  | .uncaught => p.stopped

end Process

/-- A deployment some clients of which belong to such programs. -/
structure Simulation where
  deployment : Deployment := {}
  processes : ResponderId → Option Process

/-- A program may be ended at any time, also before it is connected. -/
inductive SimulationEvent
  | connected (i : ResponderId) (o : Origin)
  | subscribeThrows (i : ResponderId) (o : Origin)
  | timeout (i : ResponderId)
  | closed (i : ResponderId)
  | ended (i : ResponderId)
  | other (e : ReactingEvent)

/-- A program's own send throws. -/
def SimulationEvent.throwsAt (i : ResponderId) : SimulationEvent → Bool
  | .other e => e.throwsAt i
  | _ => false

/-- The client an event of the network is about. -/
def ReactingEvent.party : ReactingEvent → Option ResponderId
  | .event (.client i _) => some i
  | .event (.clientInput i _ _) => some i
  | .event (.callThrows i _ _ _ _) => some i
  | .event _ => none
  | .replyThrows i _ _ _ _ => some i

/-- The client whose application calls a member function by itself. -/
def ReactingEvent.caller : ReactingEvent → Option ResponderId
  | .event e => Deployment.caller e
  | .replyThrows _ _ _ _ _ => none

namespace Deployment

/-- The messages for which the slot of a client returns. -/
def answered (react : Reaction) (d : Deployment) (i : ResponderId) :
    ReactingEvent → List DataMessage
  | .event e => d.arrivals i e
  | .replyThrows j size before _ _ =>
    if j = i then
      let ms := ((d.clients i).deserializer.takesAll ((d.toClient i).take size)).messages
      match Client.breakOff react before ms with
      | none => []
      | some b => ms.take b.returned
    else []

/-- A send that throws in a slot is caught in `onInput`. -/
def aftermath (d : Deployment) (i : ResponderId) : ReactingEvent → Aftermath
  | .event (.client j e) => if j = i then (d.clients i).aftermath e else .goesOn
  | .event (.clientInput j size ending) =>
    if j = i then (d.clients i).aftermath (.input ((d.toClient i).take size) ending) else .goesOn
  | .event _ => .goesOn
  | .replyThrows j _ _ _ _ => if j = i then .closed else .goesOn

end Deployment

namespace Simulation

def start (maxOBuf : Nat) (programs : ResponderId → Option Simulator) : Simulation where
  deployment := { hub := { server := { maxOBuf := maxOBuf } } }
  processes i := (programs i).map fun program => { program := program }

def setProcess (s : Simulation) (i : ResponderId) (p : Process) : Simulation :=
  { s with processes := Function.update s.processes i (some p) }

/-- The slots of `messageReceived`, those of clients of other programs among them. -/
def reactions (others : ResponderId → Reaction) (s : Simulation) (i : ResponderId) : Reaction :=
  match s.processes i with
  | none => others i
  | some p => p.program.onMessageReceived

def request (o : Origin) (p : Simulator) : DataMessage :=
  DataMessage.subscribe o { main := p.topicIn } .typeFull []

/-- What `onConnected` does with the client. Where `subscribe` throws, the program ends and with
it its client. -/
def onConnected (i : ResponderId) (o : Origin) (throws : Bool) (p : Simulator) :
    List DeploymentEvent :=
  [.connect i false,
    .calling i (.subscribe o { main := p.topicIn } .typeFull []) [] throws]

def connects (rx : Regex) (hook : Hook) (s : Simulation) (i : ResponderId) (o : Origin)
    (throws : Bool) (p : Process) : Option Simulation :=
  if p.started then none
  else
    (Runs.run (Deployment.step rx hook) s.deployment (onConnected i o throws p.program)).map
      fun d => { s with deployment := d }.setProcess i
        { p with started := true, running := !throws }

/-- What the event loop of a program does. -/
def whileRunning (s : Simulation) (i : ResponderId) (f : Process → Option Simulation) :
    Option Simulation :=
  (s.processes i).bind fun p => if p.running then f p else none

/-- One event, if it can happen. Nobody else uses the client of one of the programs. -/
def step (rx : Regex) (hook : Hook) (others : ResponderId → Reaction) (s : Simulation) :
    SimulationEvent → Option Simulation
  | .connected i o => s.whileRunning i (s.connects rx hook i o false)
  | .subscribeThrows i o => s.whileRunning i (s.connects rx hook i o true)
  | .timeout i => s.whileRunning i fun p => some (s.setProcess i p.onTimeout)
  | .closed i => s.whileRunning i fun p => some (s.setProcess i p.onClosed)
  | .ended i => s.whileRunning i fun p => some (s.setProcess i p.stopped)
  | .other e =>
    if (e.caller.all fun i => (s.processes i).isNone) &&
        e.party.all fun i => (s.processes i).all (·.running) then
      (s.deployment.stepWith rx hook (s.reactions others) e).map fun d =>
        { deployment := d
          processes := fun i => (s.processes i).map fun p =>
            (p.received (s.deployment.answered (s.reactions others i) i e)).after
              (s.deployment.aftermath i e) }
    else none

variable {rx : Regex} {hook : Hook} {others : ResponderId → Reaction} {s s' : Simulation}
  {i : ResponderId} {p : Process}

theorem whileRunning_eq {f : Process → Option Simulation}
    (h : s.whileRunning i f = some s') :
    ∃ p, s.processes i = some p ∧ p.running = true ∧ f p = some s' := by
  obtain ⟨p, hp, hmap⟩ := Option.bind_eq_some_iff.mp h
  obtain ⟨hrunning, hf⟩ := Option.ite_none_right_eq_some.mp hmap
  exact ⟨p, hp, hrunning, hf⟩

theorem connects_eq {o : Origin} {throws : Bool}
    (h : s.connects rx hook i o throws p = some s') :
    p.started = false ∧ ∃ d,
      Runs.run (Deployment.step rx hook) s.deployment (onConnected i o throws p.program) = some d ∧
      s' = { s with deployment := d }.setProcess i
        { p with started := true, running := !throws } := by
  obtain ⟨hstarted, hmap⟩ := Option.ite_none_left_eq_some.mp h
  obtain ⟨d, hd, hs'⟩ := Option.map_eq_some_iff.mp hmap
  exact ⟨by simpa using hstarted, d, hd, hs'.symm⟩

/-- A program prints or ends by itself, or is connected, or the network goes on. -/
theorem step_cases {e : SimulationEvent} (h : s.step rx hook others e = some s') :
    (∃ i p q, s.processes i = some p ∧ (q = p.onTimeout ∨ q = p.onClosed ∨ q = p.stopped) ∧
      s' = s.setProcess i q ∧ ∀ j, e.throwsAt j = false) ∨
    (∃ i p o throws d, s.processes i = some p ∧ p.running = true ∧ p.started = false ∧
      Runs.run (Deployment.step rx hook) s.deployment (onConnected i o throws p.program) =
        some d ∧
      s' = { s with deployment := d }.setProcess i
        { p with started := true, running := !throws } ∧ ∀ j, e.throwsAt j = false) ∨
    ∃ n d, e = .other n ∧ (∀ i, n.caller = some i → s.processes i = none) ∧
      (∀ i p, n.party = some i → s.processes i = some p → p.running = true) ∧
      s.deployment.stepWith rx hook (s.reactions others) n = some d ∧
      s' = ⟨d, fun i => (s.processes i).map fun p =>
        (p.received (s.deployment.answered (s.reactions others i) i n)).after
          (s.deployment.aftermath i n)⟩ := by
  have hconnects {i : ResponderId} {o : Origin} {throws : Bool}
      (h : s.whileRunning i (s.connects rx hook i o throws) = some s') :
      ∃ i p o throws d, s.processes i = some p ∧ p.running = true ∧ p.started = false ∧
        Runs.run (Deployment.step rx hook) s.deployment (onConnected i o throws p.program) =
          some d ∧
        s' = { s with deployment := d }.setProcess i
          { p with started := true, running := !throws } := by
    obtain ⟨p, hp, hrunning, hf⟩ := whileRunning_eq h
    obtain ⟨hstarted, d, hd, hs'⟩ := connects_eq hf
    exact ⟨i, p, o, throws, d, hp, hrunning, hstarted, hd, hs'⟩
  cases e with
  | connected i o =>
    obtain ⟨i, p, o, throws, d, hp, hrunning, hstarted, hd, hs'⟩ := hconnects h
    exact .inr (.inl ⟨i, p, o, throws, d, hp, hrunning, hstarted, hd, hs', fun _ => rfl⟩)
  | subscribeThrows i o =>
    obtain ⟨i, p, o, throws, d, hp, hrunning, hstarted, hd, hs'⟩ := hconnects h
    exact .inr (.inl ⟨i, p, o, throws, d, hp, hrunning, hstarted, hd, hs', fun _ => rfl⟩)
  | timeout i =>
    obtain ⟨p, hp, -, hs'⟩ := whileRunning_eq h
    exact .inl ⟨i, p, _, hp, .inl rfl, (Option.some.inj hs').symm, fun _ => rfl⟩
  | closed i =>
    obtain ⟨p, hp, -, hs'⟩ := whileRunning_eq h
    exact .inl ⟨i, p, _, hp, .inr (.inl rfl), (Option.some.inj hs').symm, fun _ => rfl⟩
  | ended i =>
    obtain ⟨p, hp, -, hs'⟩ := whileRunning_eq h
    exact .inl ⟨i, p, _, hp, .inr (.inr rfl), (Option.some.inj hs').symm, fun _ => rfl⟩
  | other n =>
    obtain ⟨hguard, hmap⟩ := Option.ite_none_right_eq_some.mp h
    obtain ⟨d, hd, hs'⟩ := Option.map_eq_some_iff.mp hmap
    obtain ⟨hcaller, hparty⟩ := Bool.and_eq_true_iff.mp hguard
    refine .inr (.inr ⟨n, d, rfl, fun i hi => ?_, fun i p hi hp => ?_, hd, hs'.symm⟩)
    · rw [hi] at hcaller
      simpa using hcaller
    · rw [hi, Option.all_some, hp, Option.all_some] at hparty
      exact hparty

/-- The programs only do what any client can do. -/
theorem step_run {e : SimulationEvent} (h : s.step rx hook others e = some s') :
    ∃ es, Runs.run (Deployment.step rx hook) s.deployment es = some s'.deployment := by
  rcases step_cases h with ⟨i, p, q, -, -, rfl, -⟩ | ⟨i, p, o, throws, d, -, -, -, hd, rfl, -⟩ |
    ⟨n, d, -, -, -, hd, rfl⟩
  · exact ⟨[], rfl⟩
  · exact ⟨_, hd⟩
  · exact ⟨_, Deployment.stepWith_expand hd⟩

theorem run_deployment {es : List SimulationEvent}
    (h : Runs.run (step rx hook others) s es = some s') :
    ∃ es', Runs.run (Deployment.step rx hook) s.deployment es' = some s'.deployment :=
  Runs.run_of_steps Simulation.deployment (fun _ _ _ h => step_run h) h

end Simulation

end TntPub
