import TntPub.Simulators

namespace TntPub

open Framing Broadcast

theorem Process.received_eq (p : Process) (ms : List DataMessage) :
    p.received ms = { p with count := p.count + UInt32.ofNat ms.length } := by
  induction ms generalizing p with
  | nil => simp [received]
  | cons m ms ih =>
    have hcount : p.count + 1 + UInt32.ofNat ms.length =
        p.count + UInt32.ofNat (ms.length + 1) := by
      rw [UInt32.ofNat_add, UInt32.add_assoc, UInt32.add_comm 1]
      rfl
    show Process.received { p with count := p.count + 1 } ms = _
    rw [ih, List.length_cons, ← hcount]

def Process.total (p : Process) : Nat := (p.printed.map UInt32.toNat).sum + p.count.toNat

/-- A program with its client, some of whose sends have thrown: once it is connected it has sent
its request and everything that it was to forward, and it has counted what it was given but for
the messages whose copies threw, modulo the range of an `unsigned`. -/
structure Process.Serves (thrown : Nat) (p : Process) (c : Client) : Prop where
  waiting : p.started = false → c = {}
  serving : p.started = true → ∃ o, c.accepted =
    Simulation.request o p.program :: p.program.forwarded c.exchange.dispatched
  counted : (p.total + thrown) % 2 ^ 32 = c.exchange.dispatched.length % 2 ^ 32
  printed : ∀ n ∈ p.printed, 0 < n

namespace Process

variable {thrown : Nat} {p : Process} {c c' : Client}

theorem Serves.onTimeout (h : p.Serves thrown c) : p.onTimeout.Serves thrown c := by
  unfold Process.onTimeout
  split
  next hpos =>
    refine ⟨h.waiting, h.serving, ?_, fun n hn => ?_⟩
    · rw [← h.counted]
      simp [total]
    · rcases List.mem_append.mp hn with hn | hn
      · exact h.printed n hn
      · obtain rfl := List.mem_singleton.mp hn
        exact hpos
  next => exact h

theorem Serves.stopped (h : p.Serves thrown c) : p.stopped.Serves thrown c :=
  ⟨h.waiting, h.serving, h.counted, h.printed⟩

theorem Serves.after (h : p.Serves thrown c) (aftermath : Aftermath) :
    (p.after aftermath).Serves thrown c := by
  cases aftermath with
  | goesOn => exact h
  | closed => exact h.onTimeout.stopped
  | uncaught => exact h.stopped

theorem total_received (p : Process) (ms : List DataMessage) :
    (p.received ms).total % 2 ^ 32 = (p.total + ms.length) % 2 ^ 32 := by
  rw [received_eq]
  simp only [total, UInt32.toNat_add, UInt32.toNat_ofNat']
  omega

theorem Serves.start (program : Simulator) : Serves 0 { program := program } {} :=
  ⟨fun _ => rfl, nofun, rfl, nofun⟩

theorem Serves.connected {running : Bool} (h : p.Serves thrown c) (hstarted : p.started = false)
    {o : Origin} (haccepted : c'.accepted = [Simulation.request o p.program])
    (hdispatched : c'.exchange.dispatched = []) :
    Serves thrown { p with started := true, running := running } c' := by
  have hcounted := h.counted
  rw [h.waiting hstarted] at hcounted
  refine ⟨nofun, fun _ => ⟨o, ?_⟩, ?_, h.printed⟩
  · rw [haccepted, hdispatched]
    cases p.program <;> rfl
  · rw [hdispatched]
    exact hcounted

/-- A program forwards all messages it is given, also those it does not count. -/
theorem Serves.received {new counted : List DataMessage} {more : Nat} (h : p.Serves thrown c)
    (hstarted : p.started = true)
    (hpasses : Deployment.Passes p.program.onMessageReceived c c' [] new)
    (hcounted : counted.length + more = new.length) :
    (p.received counted).Serves (thrown + more) c' := by
  have htotal := total_received p counted
  have hprevious := h.counted
  have hdispatched := hpasses.dispatched
  rw [received_eq] at htotal ⊢
  refine ⟨fun hoff => ?_, fun _ => ?_, ?_, h.printed⟩
  · rw [hstarted] at hoff
    cases hoff
  · obtain ⟨o, haccepted⟩ := h.serving hstarted
    refine ⟨o, ?_⟩
    rw [hpasses.accepted, haccepted, hdispatched, List.append_nil, ← Simulator.replies_eq,
      ← Simulator.replies_eq, Client.replies_append]
    rfl
  · rw [hdispatched, List.length_append]
    omega

end Process

namespace Simulation

variable {rx : Regex} {hook : Hook} {others : ResponderId → Reaction} {s s' : Simulation}
  {d : Deployment} {i : ResponderId} {p : Process} {thrown : ResponderId → Nat}

/-- A program ends with the first send that throws. -/
def Serving (thrown : ResponderId → Nat) (s : Simulation) : Prop :=
  ∀ i p, s.processes i = some p → p.Serves (thrown i) (s.deployment.clients i) ∧
    thrown i ≤ 1 ∧ (p.running = true → thrown i = 0)

theorem serving_start (maxOBuf : Nat) (programs : ResponderId → Option Simulator) :
    (start maxOBuf programs).Serving fun _ => 0 := by
  intro i p hp
  obtain ⟨program, -, rfl⟩ := Option.map_eq_some_iff.mp hp
  exact ⟨.start program, Nat.zero_le 1, fun _ => rfl⟩

theorem Serving.setProcess {q : Process} (h : s.Serving thrown) (hp : s.processes i = some p)
    (hothers : ∀ j, j ≠ i → d.clients j = s.deployment.clients j)
    (hserves : q.Serves (thrown i) (d.clients i))
    (hrunning : q.running = true → p.running = true) :
    ({ s with deployment := d }.setProcess i q).Serving thrown := by
  intro j r hr
  simp only [Simulation.setProcess] at hr ⊢
  by_cases hj : j = i
  · subst hj
    rw [Function.update_self] at hr
    obtain rfl := Option.some.inj hr
    obtain ⟨-, honce, hnone⟩ := h j p hp
    exact ⟨hserves, honce, fun hq => hnone (hrunning hq)⟩
  · rw [Function.update_of_ne hj] at hr
    rw [hothers j hj]
    exact h j r hr

/-- What a program's client has passed on when it is connected, also when `subscribe` throws. -/
theorem connected_client {o : Origin} {throws : Bool} {program : Simulator} {d d' : Deployment}
    (hrun : Runs.run (Deployment.step rx hook) d (onConnected i o throws program) = some d') :
    (d'.clients i).accepted = [request o program] ∧ (d'.clients i).exchange.dispatched = [] ∧
      ∀ j, j ≠ i → d'.clients j = d.clients j := by
  obtain ⟨d1, hconnect, hrest⟩ := Runs.run_cons.mp hrun
  obtain ⟨d2, hcall, hd2⟩ := Runs.run_cons.mp hrest
  obtain rfl := Option.some.inj hd2
  obtain ⟨hnew, hothers⟩ := Deployment.step_connect hconnect
  obtain ⟨-, c, rfl, haccepted, hkept⟩ := Deployment.step_calling hcall
  rw [Deployment.setClient_self, haccepted, hkept.dispatched, hnew]
  refine ⟨rfl, rfl, fun j hj => ?_⟩
  rw [← hothers j hj]
  exact Deployment.setClient_of_ne d1 c hj

theorem onMessageReceived_length (program : Simulator) (m : DataMessage) :
    (program.onMessageReceived m).length ≤ 1 := by
  cases program with
  | pubCopy topicIn topicOut => exact Nat.le_refl 1
  | pubDelay topic => exact Nat.zero_le 1

/-- A copy that throws is handed over too, and nothing behind it. -/
theorem copies_throw {program : Simulator} {c c' : Client} {input : Bytes}
    {before unreported : Nat} {counts : List Nat}
    (h : c.onInputThrowsWith program.onMessageReceived input before counts unreported = some c') :
    ∃ b, Client.breakOff program.onMessageReceived before
        (c.deserializer.takesAll input).messages = some b ∧
      b.returned < (c.deserializer.takesAll input).messages.length ∧
      Deployment.Passes program.onMessageReceived c c' []
        ((c.deserializer.takesAll input).messages.take (b.returned + 1)) := by
  obtain ⟨b, hb, hdispatched, haccepted, -⟩ := Client.onInputThrowsWith_passes h
  obtain ⟨hlt, -, -⟩ := Client.breakOff_calls hb
  refine ⟨b, hb, hlt, hdispatched, ?_⟩
  rw [haccepted, Client.breakOff_messages (onMessageReceived_length program) hb, List.append_nil]

/-- What an event of the network means to a program that is connected: it forwards what it is
given, and counts it unless the copy throws. -/
theorem passes_on {program : Simulator} {n : ReactingEvent} (react : ResponderId → Reaction)
    (hreact : react i = program.onMessageReceived) (hcaller : n.caller ≠ some i)
    (hstep : s.deployment.stepWith rx hook react n = some d) :
    ∃ new, Deployment.Passes program.onMessageReceived (s.deployment.clients i) (d.clients i) []
        new ∧
      (s.deployment.answered (react i) i n).length + (if n.throwsAt i then 1 else 0) =
        new.length := by
  cases n with
  | event e =>
    rcases Deployment.stepWith_passes hstep i with ⟨own, hpasses, hown⟩ | ⟨autoSync, rfl, -⟩
    · rw [hown hcaller, hreact] at hpasses
      exact ⟨_, hpasses, rfl⟩
    · exact absurd rfl hcaller
  | replyThrows j size before counts unreported =>
    obtain ⟨-, hmap⟩ := Option.ite_none_right_eq_some.mp hstep
    obtain ⟨c, hthrows, rfl⟩ := Option.map_eq_some_iff.mp hmap
    by_cases hij : j = i
    · subst hij
      rw [hreact] at hthrows
      obtain ⟨b, hb, hlt, hpasses⟩ := copies_throw hthrows
      rw [Deployment.setClient_self]
      refine ⟨_, hpasses, ?_⟩
      simp only [Deployment.answered, ReactingEvent.throwsAt, if_true, hreact, hb, beq_self_eq_true]
      rw [List.length_take_of_le hlt.le, List.length_take_of_le hlt]
    · rw [Deployment.setClient_of_ne s.deployment c (Ne.symm hij)]
      refine ⟨[], Deployment.passes_own _ rfl (List.append_nil _).symm, ?_⟩
      simp [Deployment.answered, ReactingEvent.throwsAt, hij]

/-- A program that is not connected is left alone. -/
theorem idle_stays {n : ReactingEvent} {react : ResponderId → Reaction}
    (hoff : (s.deployment.clients i).connected = false) (hcaller : n.caller ≠ some i)
    (hstep : s.deployment.stepWith rx hook react n = some d) :
    d.clients i = s.deployment.clients i ∧ s.deployment.answered (react i) i n = [] ∧
      n.throwsAt i = false := by
  cases n with
  | event e =>
    obtain ⟨hsame, hnothing⟩ := Deployment.stepWith_idle hstep hoff hcaller
    exact ⟨hsame, hnothing, rfl⟩
  | replyThrows j size before counts unreported =>
    obtain ⟨hreads, hmap⟩ := Option.ite_none_right_eq_some.mp hstep
    obtain ⟨c, -, rfl⟩ := Option.map_eq_some_iff.mp hmap
    have hij : j ≠ i := by
      rintro rfl
      obtain ⟨-, hc, -⟩ := Deployment.reads_eq hreads
      rw [hoff] at hc
      cases hc
    refine ⟨Deployment.setClient_of_ne s.deployment c (Ne.symm hij), if_neg hij, ?_⟩
    simpa [ReactingEvent.throwsAt] using hij

theorem running_after {ms : List DataMessage} {aftermath : Aftermath}
    (h : ((p.received ms).after aftermath).running = true) :
    p.running = true ∧ aftermath = .goesOn := by
  rw [Process.received_eq] at h
  cases aftermath with
  | goesOn => exact ⟨h, rfl⟩
  | closed => cases h
  | uncaught => cases h

theorem throwsAt_closed {n : ReactingEvent} (d : Deployment) (h : n.throwsAt i = true) :
    n.party = some i ∧ d.aftermath i n = .closed := by
  cases n with
  | event e => cases h
  | replyThrows j size before counts unreported =>
    obtain rfl : j = i := by simpa [ReactingEvent.throwsAt] using h
    exact ⟨rfl, if_pos rfl⟩

theorem Serving.other {n : ReactingEvent} (h : s.Serving thrown)
    (hcaller : ∀ i, n.caller = some i → s.processes i = none)
    (hparty : ∀ i p, n.party = some i → s.processes i = some p → p.running = true)
    (hstep : s.deployment.stepWith rx hook (s.reactions others) n = some d) :
    Serving (fun i => thrown i + if n.throwsAt i then 1 else 0)
      ⟨d, fun i => (s.processes i).map fun p =>
        (p.received (s.deployment.answered (s.reactions others i) i n)).after
          (s.deployment.aftermath i n)⟩ := by
  intro i q hq
  obtain ⟨p, hp, rfl⟩ := Option.map_eq_some_iff.mp hq
  obtain ⟨hserves, honce, hnone⟩ := h i p hp
  have hnot : n.caller ≠ some i := by
    intro hi
    rw [hcaller i hi] at hp
    cases hp
  show Process.Serves (thrown i + if n.throwsAt i then 1 else 0) _ (d.clients i) ∧
    thrown i + (if n.throwsAt i then 1 else 0) ≤ 1 ∧
    (_ → thrown i + (if n.throwsAt i then 1 else 0) = 0)
  refine ⟨Process.Serves.after ?_ _, ?_⟩
  · cases hstarted : p.started with
    | false =>
      have hidle := hserves.waiting hstarted
      obtain ⟨hsame, hnothing, hquiet⟩ := idle_stays (by rw [hidle]) hnot hstep
      rw [hnothing, hsame, hquiet]
      exact hserves
    | true =>
      have hreact : s.reactions others i = p.program.onMessageReceived := by
        simp only [reactions, hp]
      obtain ⟨new, hpasses, hcounted⟩ := passes_on _ hreact hnot hstep
      exact hserves.received hstarted hpasses hcounted
  · cases hthrows : n.throwsAt i with
    | false =>
      exact ⟨honce, fun hrunning => hnone (running_after hrunning).1⟩
    | true =>
      obtain ⟨hmine, hclosed⟩ := throwsAt_closed s.deployment hthrows
      have hzero := hnone (hparty i p hmine hp)
      refine ⟨by rw [hzero]; exact Nat.le_refl 1, fun hrunning => ?_⟩
      rw [hclosed] at hrunning
      cases (running_after hrunning).2

theorem Serving.step {e : SimulationEvent} (h : s.Serving thrown)
    (hstep : s.step rx hook others e = some s') :
    s'.Serving fun i => thrown i + if e.throwsAt i then 1 else 0 := by
  have hsame (hquiet : ∀ j, e.throwsAt j = false) :
      (fun i => thrown i + if e.throwsAt i then 1 else 0) = thrown := by
    funext j
    rw [hquiet j]
    rfl
  rcases step_cases hstep with ⟨i, p, q, hp, hq, rfl, hquiet⟩ |
    ⟨i, p, o, throws, d, hp, hrunning, hstarted, hrun, rfl, hquiet⟩ |
    ⟨n, d, rfl, hcaller, hparty, hd, rfl⟩
  · obtain ⟨hserves, -, -⟩ := h i p hp
    have hacts : q.Serves (thrown i) (s.deployment.clients i) ∧
        (q.running = true → p.running = true) := by
      rcases hq with rfl | rfl | rfl
      · refine ⟨hserves.onTimeout, fun hruns => ?_⟩
        unfold Process.onTimeout at hruns
        split at hruns <;> exact hruns
      · exact ⟨hserves.onTimeout.stopped, nofun⟩
      · exact ⟨hserves.stopped, nofun⟩
    rw [hsame hquiet]
    exact h.setProcess hp (fun _ _ => rfl) hacts.1 hacts.2
  · obtain ⟨haccepted, hdispatched, hothers⟩ := connected_client hrun
    obtain ⟨hserves, -, -⟩ := h i p hp
    have hconnected : Process.Serves (thrown i)
        { p with started := true, running := !throws } (d.clients i) :=
      hserves.connected hstarted haccepted hdispatched
    rw [hsame hquiet]
    exact h.setProcess hp hothers hconnected fun _ => hrunning
  · exact h.other hcaller hparty hd

theorem serving_run {es : List SimulationEvent} (h : s.Serving thrown)
    (hrun : Runs.run (step rx hook others) s es = some s') :
    s'.Serving fun i => thrown i + es.countP (·.throwsAt i) := by
  induction es generalizing s thrown with
  | nil =>
    obtain rfl := Option.some.inj hrun
    exact h
  | cons e es ih =>
    obtain ⟨t, ht, hrest⟩ := Runs.run_cons.mp hrun
    have hserving := ih (h.step ht) hrest
    have hcount : (fun i => thrown i + (e :: es).countP (·.throwsAt i)) =
        fun i => thrown i + (if e.throwsAt i then 1 else 0) + es.countP (·.throwsAt i) := by
      funext i
      rw [List.countP_cons]
      omega
    rw [hcount]
    exact hserving

/-- These are the programs that run. -/
def Executes (programs : ResponderId → Option Simulator) (s : Simulation) : Prop :=
  ∀ i, (s.processes i).map Process.program = programs i

theorem program_onTimeout (p : Process) : p.onTimeout.program = p.program := by
  unfold Process.onTimeout
  split <;> rfl

theorem program_after (p : Process) (aftermath : Aftermath) :
    (p.after aftermath).program = p.program := by
  cases aftermath with
  | goesOn => rfl
  | closed => exact program_onTimeout p
  | uncaught => rfl

theorem Executes.setProcess {programs : ResponderId → Option Simulator} {q : Process}
    (h : s.Executes programs) (hp : s.processes i = some p) (hq : q.program = p.program) :
    ({ s with deployment := d }.setProcess i q).Executes programs := by
  intro j
  by_cases hj : j = i
  · subst hj
    rw [← h j, hp]
    simp only [Simulation.setProcess, Function.update_self, Option.map_some, hq]
  · rw [← h j]
    simp only [Simulation.setProcess, Function.update_of_ne hj]

theorem Executes.step {programs : ResponderId → Option Simulator} {e : SimulationEvent}
    (h : s.Executes programs) (hstep : s.step rx hook others e = some s') :
    s'.Executes programs := by
  rcases step_cases hstep with ⟨i, p, q, hp, hq, rfl, -⟩ |
    ⟨i, p, o, throws, d, hp, -, -, -, rfl, -⟩ | ⟨n, d, rfl, -, -, -, rfl⟩
  · refine h.setProcess hp ?_
    rcases hq with rfl | rfl | rfl
    · exact program_onTimeout p
    · exact program_onTimeout p
    · rfl
  · exact h.setProcess hp rfl
  · intro j
    rw [← h j]
    simp only [Option.map_map]
    congr 1
    funext p
    rw [Function.comp_apply, program_after, Process.received_eq]

theorem executes_start (maxOBuf : Nat) (programs : ResponderId → Option Simulator) :
    (start maxOBuf programs).Executes programs := by
  intro i
  show ((programs i).map _).map _ = _
  rw [Option.map_map]
  exact Option.map_id'

end Simulation

namespace Simulation

/-- A program that is connected has sent its request and then a copy of every message it was
given, and nothing else. What the server publishes for it is the front of the copies of what
matched its request, all of them when nothing is on its way. It has counted what it was given but
for the message whose copy throws, which is the last one. -/
theorem forwarded_in_order (rx : Regex) (hook : Hook) (others : ResponderId → Reaction)
    (maxOBuf : Nat) (programs : ResponderId → Option Simulator) (es : List SimulationEvent)
    (s : Simulation) (hhook : ∀ id m k, m.Encodable → hook id m = some k → k.Encodable)
    (hrun : Runs.run (step rx hook others) (start maxOBuf programs) es = some s)
    (i : ResponderId) (program : Simulator) (hprogram : programs i = some program) :
    ∃ p, s.processes i = some p ∧
      (p.total + es.countP (·.throwsAt i)) % 2 ^ 32 =
        (s.deployment.clients i).exchange.dispatched.length % 2 ^ 32 ∧
      es.countP (·.throwsAt i) ≤ 1 ∧ (p.running = true → es.countP (·.throwsAt i) = 0) ∧
      (∀ n ∈ p.printed, 0 < n) ∧
      (p.started = true → ∃ o,
        (s.deployment.clients i).accepted = request o program ::
          program.forwarded (s.deployment.clients i).exchange.dispatched ∧
        s.deployment.hub.server.handledFrom i <+: request o program ::
          program.forwarded (s.deployment.hub.server.matchedBy rx i) ∧
        ∀ r, (s.deployment.clients i).connected = true →
          (s.deployment.clients i).reading = true →
          s.deployment.hub.server.responders.find i = some r → s.deployment.Settled i r →
          s.deployment.hub.server.handledFrom i = request o program ::
            program.forwarded (s.deployment.hub.server.matchedBy rx i)) := by
  obtain ⟨es', hdeployment⟩ := run_deployment hrun
  obtain ⟨log, hl⟩ := (Deployment.linked_new rx hook maxOBuf).run hhook hdeployment
  have hexecutes : s.Executes programs :=
    Runs.invariant (fun _ _ _ h hstep => h.step hstep) (executes_start maxOBuf programs) hrun
  have hprograms := hexecutes i
  rw [hprogram] at hprograms
  obtain ⟨p, hp, rfl⟩ := Option.map_eq_some_iff.mp hprograms
  obtain ⟨hserves, honce, hnone⟩ := serving_run (serving_start maxOBuf programs) hrun i p hp
  simp only [Nat.zero_add] at hserves honce hnone
  refine ⟨p, hp, hserves.counted, honce, hnone, hserves.printed, fun hstarted => ?_⟩
  obtain ⟨o, haccepted⟩ := hserves.serving hstarted
  have hfront := (hl.channel i).handledFront
  rw [haccepted] at hfront
  refine ⟨o, haccepted, hfront.trans ?_, fun r hc hreading hr hsettled => ?_⟩
  · exact List.cons_prefix_cons.mpr
      ⟨rfl, p.program.forwarded_prefix (hl.channel i).dispatchedFront⟩
  · obtain ⟨hhandled, hmatched⟩ := hl.settled hhook hc hreading hr hsettled
    rw [hhandled, hmatched, haccepted]

/-- Client 0 copies from the topic "a" to "b", client 2 listens to "b", and client 1 sends. -/
def copying : ResponderId → Option Simulator := fun i =>
  if i = 0 then some (.pubCopy [0x61] [0x62]) else if i = 2 then some (.pubDelay [0x62]) else none

def copyingRun : List SimulationEvent :=
  [.connected 0 ⟨[], 0, 0⟩, .connected 2 ⟨[], 0, 0⟩] ++
  ([.connect 1 true, .serverInput 0 41 false, .client 0 (.output 41 []), .serverInput 2 41 false,
    .client 2 (.output 41 []), .client 1 (.call (.sendMessage .greeting) [43]),
    .client 1 (.call (.sendMessage .greeting) [43]),
    .client 1 (.call (.sendMessage .greeting) [43]), .serverInput 1 129 false,
    .server (.output 0 129), .clientInput 0 60 .more] : List DeploymentEvent).map
      (fun e => .other (.event e)) ++
  [.timeout 0] ++
  ([.clientInput 0 26 .more, .client 0 (.output 43 []), .client 0 (.output 43 []),
    .serverInput 0 86 false, .server (.output 2 86), .clientInput 2 86 .more] :
      List DeploymentEvent).map (fun e => .other (.event e)) ++
  [.timeout 2, .other (.replyThrows 0 43 0 [] 0)]

theorem forwarded_in_order_copyingRun :
    ∃ s, Runs.run (step .literal .default fun _ _ => []) (start 0 copying) copyingRun = some s ∧
      (s.deployment.clients 2).exchange.dispatched.map (fun m => m.topic.main) =
        [[0x62], [0x62]] ∧
      (s.deployment.clients 0).exchange.dispatched.length = 3 ∧
      ∃ p o, s.processes 0 = some p ∧ p.printed = [1, 1] ∧ p.running = false ∧
        (p.total + 1) % 2 ^ 32 = 3 ∧
        (s.deployment.clients 0).accepted = request o (.pubCopy [0x61] [0x62]) ::
          (s.deployment.clients 0).exchange.dispatched.map
            (fun dm => { dm with topic := { main := [0x62] } }) ∧
        s.deployment.hub.server.handledFrom 0 <+:
          request o (.pubCopy [0x61] [0x62]) :: (s.deployment.hub.server.matchedBy .literal 0).map
            fun dm => { dm with topic := { main := [0x62] } } := by
  have hrun : ∃ s, Runs.run (step .literal .default fun _ _ => []) (start 0 copying) copyingRun =
        some s ∧
      (s.deployment.clients 2).exchange.dispatched.map (fun m => m.topic.main) =
        [[0x62], [0x62]] ∧
      (s.deployment.clients 0).exchange.dispatched.length = 3 ∧
      ((s.processes 0).all fun p => p.started && p.printed == [1, 1] && !p.running) = true := by
    decide +kernel
  obtain ⟨s, hs, htopics, hthree, hprocess⟩ := hrun
  obtain ⟨p, hp, hcounted, -, -, -, hserving⟩ := forwarded_in_order .literal .default _ 0 copying
    copyingRun s (fun _ _ _ h hk => Option.some.inj hk ▸ h) hs 0 (.pubCopy [0x61] [0x62]) rfl
  rw [hp] at hprocess
  obtain ⟨⟨hstarted, hprinted⟩, hended⟩ :
      (p.started = true ∧ p.printed = [1, 1]) ∧ p.running = false := by simpa using hprocess
  obtain ⟨o, haccepted, hfront, -⟩ := hserving hstarted
  rw [hthree] at hcounted
  exact ⟨s, hs, htopics, hthree, p, o, hp, hprinted, hended, hcounted, haccepted, hfront⟩

end Simulation

end TntPub
