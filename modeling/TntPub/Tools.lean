import TntPub.Lines
import TntPub.BlockingRead
import TntPub.HubRefinement

namespace TntPub

open Framing Broadcast Lines

def newline : UInt8 := 0x0a

/-- The command lines of two of the tools; the options are `-P` and `-R`. -/
inductive Command
  | tntpubSend (topic stdin : Bytes)
  | tntpubRead (byPrefix regex : Bool) (topics : List Bytes)

/-- A `tntpubRead`: the topics it has yet to subscribe to, the reads its socket has made, and
what it has printed. -/
structure TntPubRead where
  byPrefix : Bool := false
  regex : Bool := false
  topics : List Bytes
  reads : List Read := []
  stdout : Bytes := []
deriving DecidableEq

/-- A running tool; a `tntpubSend` has its topic and what is left of its input. -/
inductive Tool
  | tntpubSend (topic stdin : Bytes)
  | tntpubRead (p : TntPubRead)
deriving DecidableEq

def Command.launch : Command → Tool
  | tntpubSend topic stdin => .tntpubSend topic stdin
  | tntpubRead byPrefix regex topics =>
    .tntpubRead { byPrefix := byPrefix, regex := regex, topics := topics }

def subscriptionTypeOf (byPrefix regex : Bool) : SubscriptionType :=
  if regex then .typeRegex else if byPrefix then .typePrefix else .typeFull

/-- `std::cout << dm.data() << std::endl` for each message. -/
def printed (ms : List DataMessage) : Bytes := putLines newline (ms.map DataMessage.data)

/-- A `tntpubserver` with its clients, some of which belong to tools. -/
structure Shell where
  deployment : Deployment := {}
  tools : ResponderId → Option Tool

/-- What happens to the tools: a connection is made, a line is sent, a topic subscribed to, a
blocking read returns, or the program ends, by itself or from outside. A call that throws ends the
program. -/
inductive ShellEvent
  | start (i : ResponderId)
  | line (i : ResponderId) (o : Origin) (counts : List Nat) (throws : Bool)
  | subscribe (i : ResponderId) (o : Origin) (counts : List Nat) (throws : Bool)
  | read (i : ResponderId) (size : Nat) (eofInRead eofInBegin : Bool)
  | quit (i : ResponderId)
  | other (e : DeploymentEvent)

namespace Shell

def start (maxOBuf : Nat) (commands : ResponderId → Option Command) : Shell where
  deployment := { hub := { server := { maxOBuf := maxOBuf } } }
  tools i := (commands i).map Command.launch

def setTool (s : Shell) (i : ResponderId) (tool : Tool) : Shell :=
  { s with tools := Function.update s.tools i (some tool) }

/-- An event that is not one of a tool's client; `tntpubserver` sends nothing by itself. -/
def isOther (s : Shell) : DeploymentEvent → Bool
  | .connect i _ => (s.tools i).isNone
  | .client i _ => (s.tools i).isNone
  | .clientInput i _ _ => (s.tools i).isNone
  | .slotThrows i _ _ => (s.tools i).isNone
  | .callThrows i _ _ _ _ => (s.tools i).isNone
  | .serverInput _ _ _ => true
  | .server (.send _) => false
  | .server _ => true

/-- The destruction of the client, at the end of the `try` block of `main`. -/
def disconnect (rx : Regex) (s : Shell) (i : ResponderId) : Option Shell :=
  if (s.deployment.clients i).connected then
    (s.deployment.step rx .default (.client i (.close 0))).map fun d => { s with deployment := d }
  else none

/-- One event, if it can happen. The clients of the tools write and wait. A `readMessage` that
finds the end of the stream throws, without a look at what has come with it. -/
def step (rx : Regex) (s : Shell) : ShellEvent → Option Shell
  | .start i =>
    if (s.tools i).isSome then
      (s.deployment.step rx .default (.connect i true)).map fun d => { s with deployment := d }
    else none
  | .line i o counts throws =>
    match s.tools i with
    | some (.tntpubSend topic stdin) =>
      match getline newline stdin with
      | none => none
      | some (msg, stdin) =>
        let m := DataMessage.createPlain o { main := topic } msg
        (s.deployment.step rx .default (.calling i (.sendMessage m) counts throws)).map fun d =>
          { s with deployment := d }.setTool i (.tntpubSend topic stdin)
    | _ => none
  | .subscribe i o counts throws =>
    match s.tools i with
    | some (.tntpubRead p) =>
      match p.topics with
      | [] => none
      | topic :: topics =>
        let call := ClientCall.subscribe o { main := topic }
          (subscriptionTypeOf p.byPrefix p.regex) []
        (s.deployment.step rx .default (.calling i call counts throws)).map fun d =>
          { s with deployment := d }.setTool i (.tntpubRead { p with topics := topics })
    | _ => none
  | .read i size eofInRead eofInBegin =>
    match s.tools i with
    | some (.tntpubRead p) =>
      if p.topics.isEmpty then
        let read : Read := ⟨(s.deployment.toClient i).take size, eofInRead, eofInBegin⟩
        let q := { p with reads := p.reads ++ [read] }
        if eofInRead || eofInBegin then
          (s.disconnect rx i).map fun s => s.setTool i (.tntpubRead q)
        else
          let e := DeploymentEvent.clientInput i size .more
          (s.deployment.step rx .default e).map fun d =>
            { s with deployment := d }.setTool i
              (.tntpubRead { q with stdout := p.stdout ++ printed (s.deployment.arrivals i e) })
      else none
    | _ => none
  | .quit i => if (s.tools i).isSome then s.disconnect rx i else none
  | .other e =>
    if s.isOther e then
      (s.deployment.step rx .default e).map fun d => { s with deployment := d }
    else none

variable {rx : Regex} {s s' : Shell} {i : ResponderId}

theorem disconnect_eq (h : s.disconnect rx i = some s') :
    (s.deployment.clients i).connected = true ∧ ∃ d,
      s.deployment.step rx .default (.client i (.close 0)) = some d ∧
      s' = { s with deployment := d } := by
  obtain ⟨hc, hmap⟩ := Option.ite_none_right_eq_some.mp h
  obtain ⟨d, hd, rfl⟩ := Option.map_eq_some_iff.mp hmap
  exact ⟨hc, d, hd, rfl⟩

/-- The tools only do what any client can do. -/
theorem step_deployment {e : ShellEvent} (h : s.step rx e = some s') :
    ∃ e', s.deployment.step rx .default e' = some s'.deployment := by
  cases e with
  | start i =>
    obtain ⟨-, hmap⟩ := Option.ite_none_right_eq_some.mp h
    obtain ⟨d, hd, rfl⟩ := Option.map_eq_some_iff.mp hmap
    exact ⟨_, hd⟩
  | line i o counts throws =>
    simp only [step] at h
    split at h
    next topic stdin htool =>
      split at h
      next => cases h
      next =>
        obtain ⟨d, hd, rfl⟩ := Option.map_eq_some_iff.mp h
        exact ⟨_, hd⟩
    next => cases h
  | subscribe i o counts throws =>
    simp only [step] at h
    split at h
    next p htool =>
      split at h
      next => cases h
      next =>
        obtain ⟨d, hd, rfl⟩ := Option.map_eq_some_iff.mp h
        exact ⟨_, hd⟩
    next => cases h
  | read i size eofInRead eofInBegin =>
    simp only [step] at h
    split at h
    next p htool =>
      obtain ⟨-, h⟩ := Option.ite_none_right_eq_some.mp h
      split at h
      next =>
        obtain ⟨t, ht, rfl⟩ := Option.map_eq_some_iff.mp h
        obtain ⟨-, d, hd, rfl⟩ := disconnect_eq ht
        exact ⟨_, hd⟩
      next =>
        obtain ⟨d, hd, rfl⟩ := Option.map_eq_some_iff.mp h
        exact ⟨_, hd⟩
    next => cases h
  | quit i =>
    obtain ⟨-, h⟩ := Option.ite_none_right_eq_some.mp h
    obtain ⟨-, d, hd, rfl⟩ := disconnect_eq h
    exact ⟨_, hd⟩
  | other e =>
    obtain ⟨-, hmap⟩ := Option.ite_none_right_eq_some.mp h
    obtain ⟨d, hd, rfl⟩ := Option.map_eq_some_iff.mp hmap
    exact ⟨_, hd⟩

theorem run_deployment {es : List ShellEvent} (h : Runs.run (step rx) s es = some s') :
    ∃ es', Runs.run (Deployment.step rx .default) s.deployment es' = some s'.deployment := by
  refine Runs.run_of_steps Shell.deployment (fun t e t' hstep => ?_) h
  obtain ⟨e', he'⟩ := step_deployment hstep
  exact ⟨[e'], Runs.run_cons.mpr ⟨_, he', rfl⟩⟩

end Shell

end TntPub
