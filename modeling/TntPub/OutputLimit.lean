import TntPub.OnInput
import TntPub.Runs

namespace TntPub

/-- What can happen to the output of a server: a message sent to all, bytes written by the
socket of a responder, and responders that come, change their subscriptions and go. -/
inductive OutputEvent
  | dispatch (m : DataMessage)
  | written (id : ResponderId) (count : Nat)
  | connect (id : ResponderId)
  | received (id : ResponderId) (m : DataMessage)
  | disconnect (id : ResponderId)

/-- What a dispatched message means to one responder. -/
inductive DispatchOutcome
  | notSubscribed
  | appended
  | closed
deriving DecidableEq

/-- The outcome for a responder with these subscriptions and this many pending bytes. -/
def dispatchOutcome (rx : Regex) (maxOBuf : Nat) (m : DataMessage)
    (subscriptions : List Subscription) (pending : Nat) : DispatchOutcome :=
  if subscriptions.any fun subscription => subscription.matchesTopic rx m.topic then
    if pending + m.frame.length > maxOBuf then .closed else .appended
  else .notSubscribed

def DispatchOutcome.apply (m : DataMessage) (r : Responder) : DispatchOutcome → Option Responder
  | notSubscribed => some r
  | appended => some { r with outputBuffer := r.outputBuffer ++ m.frame }
  | closed => none

namespace Server

/-- A call that returned; one that is left by an exception closes the client first, as the
handler of `onInput` does. -/
def completed (id : ResponderId) (r : EStateM.Result Interrupt Server Unit) : Option Server :=
  match r with
  | .ok _ t => some t
  | .error (.exception _) t => match catchException id t with
    | .ok _ u => some u
    | .error _ _ => none
  | .error .useAfterFree _ => none

def outputStep (rx : Regex) (s : Server) : OutputEvent → Option Server
  | .dispatch m =>
    match doSendMessage rx m s with
    | .ok _ t => some t
    | .error _ _ => none
  | .written id count => some (s.drain id count)
  | .connect id => some (s.onConnectionPending id)
  | .received id m =>
    if (s.responders.find id).isSome then completed id (handleMessage rx id m s) else none
  | .disconnect id => completed id (closeClient id s)

/-- No connected responder has more pending bytes than the limit. -/
def WithinLimit (s : Server) : Prop :=
  ∀ j r, s.responders.find j = some r → r.outputBuffer.length ≤ s.maxOBuf

variable {rx : Regex} {s t : Server} {id : ResponderId} {r r' : Responder} {m : DataMessage}

theorem exceeds_queue (hmax : 0 < s.maxOBuf) : (r.queue m).exceeds s.maxOBuf = true ↔
    s.maxOBuf < r.outputBuffer.length + m.frame.length := by
  have hne : s.maxOBuf ≠ 0 := by omega
  simp [Responder.exceeds, Responder.queue, DataMessage.appendTo, hne]

theorem sendMessage_closes_iff (hmax : 0 < s.maxOBuf) (hr : s.responders.find id = some r)
    (m : DataMessage) :
    ∃ t, sendMessage id m s = .ok () t ∧
      (t.responders.find id = none ↔ s.maxOBuf < r.outputBuffer.length + m.frame.length) := by
  cases hfull : (r.queue m).exceeds s.maxOBuf with
  | true =>
    refine ⟨_, sendMessage_full hr hfull, ?_⟩
    simp [(exceeds_queue hmax).mp hfull]
  | false =>
    refine ⟨_, sendMessage_ok hr hfull, ?_⟩
    have hroom := mt (exceeds_queue hmax).mpr (by rw [hfull]; exact Bool.false_ne_true)
    simp [hr, hroom]

/-- What is offered has the outcome that the subscriptions and the pending bytes determine. -/
theorem offer_outcome (hmax : 0 < s.maxOBuf) (m : DataMessage) (j : ResponderId) :
    ((s.connection j).offer rx s.maxOBuf m j).responder =
      (s.responders.find j).bind fun r =>
        (dispatchOutcome rx s.maxOBuf m r.subscriptions r.outputBuffer.length).apply m r := by
  simp only [Connection.offer, connection_responder]
  cases hr : s.responders.find j with
  | none => simp [hr]
  | some r =>
    simp only [Option.bind_some, dispatchOutcome]
    by_cases hsub : r.isSubscribed rx m.topic = true
    · have hany : (r.subscriptions.any fun subscription =>
        subscription.matchesTopic rx m.topic) = true := hsub
      simp only [hsub, hany, if_true]
      by_cases hfull : (r.queue m).exceeds s.maxOBuf = true
      · rw [if_pos hfull, if_pos ((exceeds_queue hmax).mp hfull)]
        rfl
      · rw [if_neg hfull, if_neg (mt (exceeds_queue hmax).mpr hfull)]
        rfl
    · have hany : ¬ (r.subscriptions.any fun subscription =>
        subscription.matchesTopic rx m.topic) = true := hsub
      simp only [hsub, hany, if_false, Bool.false_eq_true]
      exact hr

theorem doSendMessage_outcomes (hmax : 0 < s.maxOBuf) (rx : Regex) (m : DataMessage) :
    ∃ t, doSendMessage rx m s = .ok () t ∧ t.maxOBuf = s.maxOBuf ∧
      ∀ j, t.responders.find j = (s.responders.find j).bind fun r =>
        (dispatchOutcome rx s.maxOBuf m r.subscriptions r.outputBuffer.length).apply m r := by
  obtain ⟨t, ht, hshared, hparts⟩ := doSendMessage_spec rx m s
  have hmax' := congrArg Shared.maxOBuf hshared
  refine ⟨t, ht, hmax', fun j => ?_⟩
  rw [← offer_outcome hmax, ← hparts j, connection_responder]

theorem withinLimit_of_find (h : s.WithinLimit) (hmax : t.maxOBuf = s.maxOBuf)
    (hfind : ∀ j r', t.responders.find j = some r' → ∃ r, s.responders.find j = some r ∧
      (r.outputBuffer.length ≤ s.maxOBuf → r'.outputBuffer.length ≤ s.maxOBuf)) :
    t.WithinLimit := by
  intro j r' hr'
  obtain ⟨r, hr, hle⟩ := hfind j r' hr'
  rw [hmax]
  exact hle (h j r hr)

theorem WithinLimit.outcomes (h : s.WithinLimit) (rx : Regex) (m : DataMessage)
    (hmax : t.maxOBuf = s.maxOBuf)
    (hfind : ∀ j, t.responders.find j = (s.responders.find j).bind fun r =>
      (dispatchOutcome rx s.maxOBuf m r.subscriptions r.outputBuffer.length).apply m r) :
    t.WithinLimit := by
  refine withinLimit_of_find h hmax fun j r' hr' => ?_
  rw [hfind] at hr'
  obtain ⟨r, hr, happly⟩ := Option.bind_eq_some_iff.mp hr'
  refine ⟨r, hr, fun hle => ?_⟩
  unfold dispatchOutcome at happly
  split at happly
  next =>
    split at happly
    next => cases happly
    next hroom =>
      obtain rfl := Option.some.inj happly
      simpa using hroom
  next =>
    obtain rfl := Option.some.inj happly
    exact hle

theorem WithinLimit.drain (h : s.WithinLimit) (id : ResponderId) (count : Nat) :
    (s.drain id count).WithinLimit := by
  refine withinLimit_of_find h rfl fun j r' hr' => ?_
  simp only [Server.drain, Registry.find_modify] at hr'
  split at hr'
  next =>
    obtain ⟨r, hr, rfl⟩ := Option.map_eq_some_iff.mp hr'
    exact ⟨r, hr, fun hle => by simp only [List.length_drop]; omega⟩
  next => exact ⟨r', hr', fun hle => hle⟩

theorem WithinLimit.onConnectionPending (h : s.WithinLimit) (id : ResponderId) :
    (s.onConnectionPending id).WithinLimit := by
  cases hfind : s.responders.find id with
  | some r =>
    have hsame : s.responders.insert id {} = s.responders := by simp [Registry.insert, hfind]
    rw [Server.onConnectionPending, hsame]
    exact h
  | none =>
    intro j r hr
    rw [Server.onConnectionPending, Registry.find_insert hfind] at hr
    split at hr
    next =>
      obtain rfl := Option.some.inj hr
      exact Nat.zero_le _
    next => exact h j r hr

theorem WithinLimit.closeClient (h : s.WithinLimit) (hr : s.responders.find id = some r) :
    ∃ t, Server.closeClient id s = .ok () t ∧ t.WithinLimit ∧ t.maxOBuf = s.maxOBuf := by
  refine ⟨_, closeClient_ok hr, withinLimit_of_find h rfl fun j r' hr' => ?_, rfl⟩
  simp only [Registry.find_remove] at hr'
  split at hr'
  next => cases hr'
  next => exact ⟨r', hr', fun hle => hle⟩

theorem control_outputBuffer (h : r.control rx m = .ok r') :
    r'.outputBuffer = r.outputBuffer := by
  unfold Responder.control at h
  split at h
  next =>
    split at h
    next => cases h
    next =>
      obtain rfl := Except.ok.inj h
      rfl
  next =>
    split at h
    next =>
      obtain rfl := Except.ok.inj h
      rfl
    next =>
      obtain rfl := Except.ok.inj h
      rfl

theorem offer_log (c : Connection) (e : Event) (maxOBuf : Nat) (j : ResponderId) :
    ((c.log e).offer rx maxOBuf m j).responder = (c.offer rx maxOBuf m j).responder := by
  obtain ⟨responder, events⟩ := c
  cases responder with
  | none => rfl
  | some r =>
    simp only [Connection.offer, Connection.log]
    split
    next => split <;> rfl
    next => rfl

/-- A message that is taken from a connection, whatever it is, keeps all within the limit. -/
theorem WithinLimit.handleMessage (h : s.WithinLimit) (hmax : 0 < s.maxOBuf)
    (hr : s.responders.find id = some r)
    (hstep : completed id (Server.handleMessage rx id m s) = some t) :
    t.WithinLimit ∧ t.maxOBuf = s.maxOBuf := by
  by_cases hm : m.isDataMessage = true
  · obtain ⟨u, hu, hshared, hparts⟩ := handleMessage_data rx s id hm
    rw [hu] at hstep
    obtain rfl := Option.some.inj hstep
    have hmax' : u.maxOBuf = s.maxOBuf := congrArg Shared.maxOBuf hshared
    refine ⟨h.outcomes rx { m with serial := s.lastSerial + 1 } hmax' fun j => ?_, hmax'⟩
    rw [← offer_outcome hmax, ← connection_responder, hparts]
    split
    next => exact offer_log _ _ _ _
    next => rfl
  · have hspec := handleMessage_control rx hr (by simpa using hm : m.isDataMessage = false)
    cases hc : r.control rx m with
    | ok r' =>
      rw [hc] at hspec
      obtain ⟨u, hu, hshared, hparts⟩ := hspec
      rw [hu] at hstep
      obtain rfl := Option.some.inj hstep
      have hmax' : u.maxOBuf = s.maxOBuf := congrArg Shared.maxOBuf hshared
      refine ⟨withinLimit_of_find h hmax' fun j k hk => ?_, hmax'⟩
      rw [← connection_responder, hparts] at hk
      split at hk
      next hj =>
        obtain rfl := Option.some.inj hk
        exact ⟨r, hj ▸ hr, fun hle => (control_outputBuffer hc).symm ▸ hle⟩
      next => exact ⟨k, hk, fun hle => hle⟩
    | error e =>
      rw [hc] at hspec
      obtain ⟨u, hu, hshared, hparts⟩ := hspec
      have hmax' : u.maxOBuf = s.maxOBuf := congrArg Shared.maxOBuf hshared
      have hsame : ∀ j, u.responders.find j = s.responders.find j := by
        intro j
        rw [← connection_responder, hparts]
        split
        next hj => rw [hj, hr]
        next => rfl
      have hwithin : u.WithinLimit := withinLimit_of_find h hmax' fun j k hk =>
        ⟨k, hsame j ▸ hk, fun hle => hle⟩
      have hfind : u.responders.find id = some r := (hsame id).trans hr
      obtain ⟨v, hv, hv1, hv2⟩ := hwithin.closeClient hfind
      have hcatch : catchException id u = .ok () v := by
        simp only [catchException, hfind, Option.isSome_some, if_true, hv]
      simp only [hu, completed, hcatch] at hstep
      obtain rfl := Option.some.inj hstep
      exact ⟨hv1, hv2.trans hmax'⟩

theorem WithinLimit.step {e : OutputEvent} (h : s.WithinLimit) (hmax : 0 < s.maxOBuf)
    (hstep : outputStep rx s e = some t) : t.WithinLimit ∧ t.maxOBuf = s.maxOBuf := by
  cases e with
  | dispatch m =>
    obtain ⟨u, hu, hmax', hfind⟩ := doSendMessage_outcomes hmax rx m
    simp only [outputStep, hu] at hstep
    obtain rfl := Option.some.inj hstep
    exact ⟨h.outcomes rx m hmax' hfind, hmax'⟩
  | written id count =>
    obtain rfl := Option.some.inj hstep
    exact ⟨h.drain id count, rfl⟩
  | connect id =>
    obtain rfl := Option.some.inj hstep
    exact ⟨h.onConnectionPending id, rfl⟩
  | received id m =>
    simp only [outputStep] at hstep
    split at hstep
    next hsome =>
      obtain ⟨r, hr⟩ := Option.isSome_iff_exists.mp hsome
      exact h.handleMessage hmax hr hstep
    next => cases hstep
  | disconnect id =>
    cases hr : s.responders.find id with
    | none =>
      have hclose : Server.closeClient id s = .error .useAfterFree s := by
        rw [Server.closeClient]
        exact Call.bind_error (by simp only [accessResponder, hr])
      simp only [outputStep, hclose, completed] at hstep
      cases hstep
    | some r =>
      obtain ⟨u, hu, hkeep⟩ := h.closeClient hr
      simp only [outputStep, hu, completed] at hstep
      obtain rfl := Option.some.inj hstep
      exact hkeep

/-- In every state of every run the pending bytes are within the limit, exceeding it is what
closes a responder, and a dispatch means to each responder what its own part determines. -/
theorem output_limit (rx : Regex) (s t : Server) (es : List OutputEvent) (hmax : 0 < s.maxOBuf)
    (hstart : s.WithinLimit) (hrun : Runs.run (outputStep rx) s es = some t) :
    t.maxOBuf = s.maxOBuf ∧
      (∀ j r, t.responders.find j = some r → r.outputBuffer.length ≤ s.maxOBuf) ∧
      (∀ j r m, t.responders.find j = some r → ∃ u, sendMessage j m t = .ok () u ∧
        (u.responders.find j = none ↔ s.maxOBuf < r.outputBuffer.length + m.frame.length)) ∧
      ∀ m, ∃ u, doSendMessage rx m t = .ok () u ∧
        ∀ j, u.responders.find j = (t.responders.find j).bind fun r =>
          (dispatchOutcome rx s.maxOBuf m r.subscriptions r.outputBuffer.length).apply m r := by
  have hstep : ∀ u e u', u.WithinLimit ∧ u.maxOBuf = s.maxOBuf → outputStep rx u e = some u' →
      u'.WithinLimit ∧ u'.maxOBuf = s.maxOBuf := by
    rintro u e u' ⟨hwithin, hsame⟩ hstep
    obtain ⟨hwithin', hsame'⟩ := hwithin.step (by omega) hstep
    exact ⟨hwithin', hsame'.trans hsame⟩
  obtain ⟨hwithin, hsame⟩ := Runs.invariant hstep ⟨hstart, rfl⟩ hrun
  rw [← hsame] at hmax ⊢
  refine ⟨rfl, hwithin, fun j r m hr => sendMessage_closes_iff hmax hr m, fun m => ?_⟩
  obtain ⟨u, hu, -, hfind⟩ := doSendMessage_outcomes hmax rx m
  exact ⟨u, hu, hfind⟩

/-- A responder that wants every greeting, on a server that lets it wait with `maxOBuf` bytes. -/
def slowConsumer (maxOBuf : Nat) : Server where
  responders := Registry.empty.insert 0
    { subscriptions := [⟨some (.fullTopic { main := [0x61] })⟩] }
  maxOBuf := maxOBuf

theorem output_limit_slowConsumer :
    ∃ t, Runs.run (outputStep .literal) (slowConsumer 100)
        [.dispatch .greeting, .written 0 40, .dispatch .greeting, .dispatch .greeting] = some t ∧
      ∀ j r, t.responders.find j = some r → r.outputBuffer.length ≤ 100 := by
  have hrun : (Runs.run (outputStep .literal) (slowConsumer 100)
      [.dispatch .greeting, .written 0 40, .dispatch .greeting, .dispatch .greeting]).isSome := by
    decide +kernel
  have hstart : (slowConsumer 100).WithinLimit := by
    intro j r hr
    rw [slowConsumer, Registry.find_insert rfl] at hr
    split at hr
    next =>
      obtain rfl := Option.some.inj hr
      exact Nat.zero_le _
    next => cases hr
  obtain ⟨t, ht⟩ := Option.isSome_iff_exists.mp hrun
  exact ⟨t, ht, (output_limit .literal (slowConsumer 100) t _ (by decide) hstart ht).2.1⟩

end Server

end TntPub
