import TntPub.OnInput

namespace TntPub

open Framing

/-- What a responder comes to by one of its own messages. -/
inductive Course
  | kept (serial : UInt64) (r : Responder)
  | closed
  | rejected (e : Exception)

/-- Each data message takes the next serial number. One that the responder is itself
subscribed to makes its output larger, and it is closed if that is too large. -/
def Responder.course (rx : Regex) (maxOBuf : Nat) (serial : UInt64) (r : Responder)
    (m : DataMessage) : Course :=
  if m.isDataMessage then
    if r.isSubscribed rx m.topic then
      if (r.queue { m with serial := serial + 1 }).exceeds maxOBuf then .closed
      else .kept (serial + 1) (r.queue { m with serial := serial + 1 })
    else .kept (serial + 1) r
  else
    match r.control rx m with
    | .error e => .rejected e
    | .ok r => .kept serial r

/-- The pattern is one that can be compiled, if the message asks for a regular expression. -/
def DataMessage.isAccepted (rx : Regex) (m : DataMessage) : Bool :=
  !m.isSubscribeMessage || (Subscription.create rx m.topic (subscriptionType m.type)).isOk

theorem DataMessage.isAccepted_of_data {rx : Regex} {m : DataMessage}
    (hm : m.isDataMessage = true) : m.isAccepted rx = true := by
  have hsub : m.isSubscribeMessage = false := by
    unfold DataMessage.isDataMessage at hm
    unfold DataMessage.isSubscribeMessage
    cases htype : m.type <;> simp_all
  rw [DataMessage.isAccepted, hsub]
  rfl

@[simp] theorem Responder.exceeds_zero (r : Responder) : r.exceeds 0 = false := rfl

/-- The messages one after another, if the responder is kept by all of them. -/
def Responder.courses (rx : Regex) (maxOBuf : Nat) :
    UInt64 → Responder → List DataMessage → Option (UInt64 × Responder)
  | serial, r, [] => some (serial, r)
  | serial, r, m :: ms =>
    match r.course rx maxOBuf serial m with
    | .kept serial r => courses rx maxOBuf serial r ms
    | .closed => none
    | .rejected _ => none

namespace Responder

variable {rx : Regex} {maxOBuf : Nat} {serial : UInt64} {r : Responder}

theorem control_accepted (r : Responder) {m : DataMessage} (haccepted : m.isAccepted rx = true) :
    ∃ r', r.control rx m = .ok r' ∧ r'.deserializer = r.deserializer ∧
      r'.outputBuffer = r.outputBuffer := by
  unfold control
  by_cases hsub : m.isSubscribeMessage = true
  · simp only [DataMessage.isAccepted, hsub, Bool.not_true, Bool.false_or] at haccepted
    simp only [hsub, if_true]
    cases hc : Subscription.create rx m.topic (DataMessage.subscriptionType m.type) with
    | error e => rw [hc] at haccepted; cases haccepted
    | ok subscription => exact ⟨_, rfl, rfl, rfl⟩
  · simp only [hsub, Bool.false_eq_true, if_false]
    by_cases hun : m.isUnsubscribeMessage = true
    · exact ⟨r.unsubscribe m, by simp only [hun, if_true], rfl, rfl⟩
    · exact ⟨r, by simp only [hun, Bool.false_eq_true, if_false], rfl, rfl⟩

theorem control_rejected (r : Responder) {m : DataMessage} (hrejected : m.isAccepted rx = false) :
    ∃ e, r.control rx m = .error e := by
  obtain ⟨hsub, hcreate⟩ := Bool.or_eq_false_iff.mp hrejected
  have hsubscribe : m.isSubscribeMessage = true := by simpa using hsub
  unfold control
  simp only [hsubscribe, if_true]
  cases hc : Subscription.create rx m.topic (DataMessage.subscriptionType m.type) with
  | error e => exact ⟨e, rfl⟩
  | ok subscription => rw [hc] at hcreate; cases hcreate

theorem courses_append (ms ns : List DataMessage) :
    r.courses rx maxOBuf serial (ms ++ ns) =
      (r.courses rx maxOBuf serial ms).bind fun next =>
        next.2.courses rx maxOBuf next.1 ns := by
  induction ms generalizing serial r with
  | nil => rfl
  | cons m ms ih =>
    simp only [List.cons_append, courses]
    cases r.course rx maxOBuf serial m with
    | kept serial' r' => exact ih
    | closed => rfl
    | rejected e => rfl

def withInput (r : Responder) (d : Deserializer) : Responder := { r with deserializer := d }

theorem control_withInput (d : Deserializer) (m : DataMessage) :
    (r.withInput d).control rx m = (r.control rx m).map (·.withInput d) := by
  unfold control
  by_cases hsub : m.isSubscribeMessage = true
  · simp only [hsub, if_true]
    cases Subscription.create rx m.topic (DataMessage.subscriptionType m.type) <;> rfl
  · simp only [hsub, Bool.false_eq_true, if_false]
    by_cases hun : m.isUnsubscribeMessage = true
    · simp only [hun, if_true]
      rfl
    · simp only [hun, Bool.false_eq_true, if_false]
      rfl

theorem course_withInput (d : Deserializer) (m : DataMessage) :
    (r.withInput d).course rx maxOBuf serial m =
      match r.course rx maxOBuf serial m with
      | .kept serial r => .kept serial (r.withInput d)
      | .closed => .closed
      | .rejected e => .rejected e := by
  simp only [course, control_withInput]
  by_cases hm : m.isDataMessage = true
  · simp only [hm, if_true]
    by_cases hsub : r.isSubscribed rx m.topic = true
    · have hsub' : (r.withInput d).isSubscribed rx m.topic = true := hsub
      simp only [hsub, hsub', if_true]
      by_cases hfull : (r.queue { m with serial := serial + 1 }).exceeds maxOBuf = true
      · have hfull' : ((r.withInput d).queue { m with serial := serial + 1 }).exceeds maxOBuf =
          true := hfull
        simp only [hfull, hfull', if_true]
      · have hroom : ¬ ((r.withInput d).queue { m with serial := serial + 1 }).exceeds maxOBuf =
          true := hfull
        simp only [hfull, hroom, if_false, Bool.false_eq_true]
        rfl
    · have hsub' : ¬ (r.withInput d).isSubscribed rx m.topic = true := hsub
      simp only [hsub, hsub', if_false, Bool.false_eq_true]
  · simp only [hm, if_false, Bool.false_eq_true]
    cases r.control rx m with
    | error e => rfl
    | ok q => rfl

theorem courses_withInput (d : Deserializer) (ms : List DataMessage) :
    (r.withInput d).courses rx maxOBuf serial ms =
      (r.courses rx maxOBuf serial ms).map fun next => (next.1, next.2.withInput d) := by
  induction ms generalizing serial r with
  | nil => rfl
  | cons m ms ih =>
    simp only [courses, course_withInput]
    cases r.course rx maxOBuf serial m with
    | kept serial' r' => exact ih
    | closed => rfl
    | rejected e => rfl

/-- Without a limit and with patterns that can be compiled every message is survived. -/
theorem exists_courses (r : Responder) (serial : UInt64) {ms : List DataMessage}
    (haccepted : ∀ m ∈ ms, m.isAccepted rx = true) :
    ∃ next, r.courses rx 0 serial ms = some next := by
  induction ms generalizing serial r with
  | nil => exact ⟨_, rfl⟩
  | cons m ms ih =>
    have hrest := fun k hk => haccepted k (List.mem_cons_of_mem m hk)
    have hm := haccepted m List.mem_cons_self
    have hcourse : ∃ serial' r', r.course rx 0 serial m = .kept serial' r' := by
      rw [course]
      by_cases hdata : m.isDataMessage = true
      · simp only [hdata, if_true, exceeds_zero, Bool.false_eq_true, if_false]
        split
        next => exact ⟨_, _, rfl⟩
        next => exact ⟨_, _, rfl⟩
      · obtain ⟨r', hcontrol, -⟩ := r.control_accepted hm
        rw [if_neg hdata, hcontrol]
        exact ⟨_, _, rfl⟩
    obtain ⟨serial', r', hcourse⟩ := hcourse
    simp only [courses, hcourse]
    exact ih _ _ hrest

end Responder

namespace Server

variable {rx : Regex} {s t u : Server} {id : ResponderId} {r : Responder}

/-- The responder still exists, and was not reported as disconnected meanwhile. -/
structure Keeps (id : ResponderId) (s t : Server) : Prop where
  alive : ∃ r, t.responders.find id = some r
  quiet : ∃ new, (t.connection id).events = (s.connection id).events ++ new ∧
    .clientDisconnected id ∉ new

theorem Keeps.refl (hr : s.responders.find id = some r) : Keeps id s s :=
  ⟨⟨r, hr⟩, [], by simp, by simp⟩

theorem Keeps.trans (h : Keeps id s t) (h' : Keeps id t u) : Keeps id s u := by
  obtain ⟨new, hnew, hquiet⟩ := h.quiet
  obtain ⟨new', hnew', hquiet'⟩ := h'.quiet
  refine ⟨h'.alive, new ++ new', ?_, ?_⟩
  · rw [hnew', hnew, List.append_assoc]
  · simp [hquiet, hquiet']

theorem Keeps.of_connection {new : List Event}
    (h : t.connection id = ⟨some r, (s.connection id).events ++ new⟩)
    (hquiet : .clientDisconnected id ∉ new) : Keeps id s t :=
  ⟨⟨r, congrArg Connection.responder h⟩, new, congrArg Connection.events h, hquiet⟩

theorem announce_course (rx : Regex) (hr : s.responders.find id = some r) (m : DataMessage) :
    match r.course rx s.maxOBuf s.lastSerial m with
    | .kept serial r' => ∃ t, announce (handleMessage rx id) (emitMessage id) m s = .ok () t ∧
        t.lastSerial = serial ∧ t.maxOBuf = s.maxOBuf ∧ t.responders.find id = some r' ∧
        Keeps id s t
    | .closed => ∃ t,
        announce (handleMessage rx id) (emitMessage id) m s = .error .useAfterFree t
    | .rejected e => ∃ t,
        announce (handleMessage rx id) (emitMessage id) m s = .error (.exception e) t ∧
          Keeps id s t := by
  have hown (t : Server) (r' : Responder) (new : List Event)
      (h : t.connection id = ⟨some r', (s.connection id).events ++ new⟩)
      (hquiet : .clientDisconnected id ∉ new) :
      t.responders.find id = some r' ∧ Keeps id s t :=
    ⟨congrArg Connection.responder h, .of_connection h hquiet⟩
  by_cases hm : m.isDataMessage = true
  · have hdata := announce_data rx hr hm
    have hoffer := offer_own rx hr s.maxOBuf m { m with serial := s.lastSerial + 1 }
    by_cases hsub : r.isSubscribed rx m.topic = true
    · by_cases hfull : (r.queue { m with serial := s.lastSerial + 1 }).exceeds s.maxOBuf = true
      · rw [Responder.course, if_pos hm, if_pos hsub, if_pos hfull]
        exact announce_full hr hm hsub hfull
      · rw [Responder.course, if_pos hm, if_pos hsub, if_neg hfull]
        obtain ⟨t, ht, hshared, hparts⟩ := hdata (fun _ => by simpa using hfull)
        have h := hparts id
        rw [if_pos rfl, hoffer, if_pos hsub, if_neg hfull] at h
        exact ⟨t, ht, congrArg Shared.lastSerial hshared, congrArg Shared.maxOBuf hshared,
          hown t _ _ h (by simp)⟩
    · rw [Responder.course, if_pos hm, if_neg hsub]
      obtain ⟨t, ht, hshared, hparts⟩ := hdata (fun h => absurd h hsub)
      have h := hparts id
      rw [if_pos rfl, hoffer, if_neg hsub] at h
      exact ⟨t, ht, congrArg Shared.lastSerial hshared, congrArg Shared.maxOBuf hshared,
        hown t _ _ h (by simp)⟩
  · have hcontrol : m.isDataMessage = false := by simpa using hm
    rw [Responder.course, if_neg hm]
    cases hc : r.control rx m with
    | error e =>
      obtain ⟨t, ht, hparts⟩ := announce_rejected hr hcontrol hc
      exact ⟨t, ht, (hown t r _ hparts (by simp)).2⟩
    | ok r' =>
      obtain ⟨t, ht, hshared, hparts⟩ := announce_control hr hcontrol hc
      have h := hparts id
      rw [if_pos rfl] at h
      refine ⟨t, ht, congrArg Shared.lastSerial hshared, congrArg Shared.maxOBuf hshared,
        hown t r' _ h ?_⟩
      unfold signals
      split <;> simp

theorem deliver_courses {serial : UInt64} {r' : Responder} {ms : List DataMessage}
    (hr : s.responders.find id = some r)
    (h : r.courses rx s.maxOBuf s.lastSerial ms = some (serial, r')) :
    ∃ t, deliver (handleMessage rx id) (emitMessage id) ms s = .ok () t ∧
      t.lastSerial = serial ∧ t.maxOBuf = s.maxOBuf ∧ t.responders.find id = some r' ∧
      Keeps id s t := by
  induction ms generalizing s r with
  | nil =>
    obtain ⟨rfl, rfl⟩ := Prod.mk.inj (Option.some.inj h)
    exact ⟨s, rfl, rfl, rfl, hr, .refl hr⟩
  | cons m ms ih =>
    have hstep := announce_course rx hr m
    unfold Responder.courses at h
    cases hc : r.course rx s.maxOBuf s.lastSerial m with
    | closed => rw [hc] at h; cases h
    | rejected e => rw [hc] at h; cases h
    | kept serial' r'' =>
      rw [hc] at hstep h
      obtain ⟨t, ht, hserial, hmax, hr', hkeeps⟩ := hstep
      obtain ⟨u, hu, hu1, hu2, hu3, hkeeps'⟩ := ih hr' (by rw [hserial, hmax]; exact h)
      refine ⟨u, ?_, hu1, hu2.trans hmax, hu3, hkeeps.trans hkeeps'⟩
      rw [deliver, Call.bind_ok ht]
      exact hu

theorem takes_eq_drain {input : Bytes}
    (hwait : (framer r.deserializer.version1Flag).front r.deserializer.inputData = .incomplete)
    (hsize : (r.deserializer.inputData ++ input).length < 2 ^ 32) :
    r.takes input =
      (framer r.deserializer.version1Flag).drain (r.deserializer.inputData ++ input) := by
  have hlen : toUnsigned input.length = input.length := by
    simp only [List.length_append] at hsize
    exact Nat.mod_eq_of_lt (by omega)
  rw [Responder.takes, hlen, List.take_length]
  exact Deserializer.drained_eq_drain hwait hsize

theorem onInput_courses {serial : UInt64} {r' : Responder} {input : Bytes}
    (hr : s.responders.find id = some r) (herr : (r.takes input).error = none)
    (h : r.courses rx s.maxOBuf s.lastSerial (r.takes input).messages = some (serial, r')) :
    ∃ t, onInput rx id input false s = .ok () t ∧ t.lastSerial = serial ∧
      t.maxOBuf = s.maxOBuf ∧
      t.responders.find id =
        some (r'.withInput { r.deserializer with inputData := (r.takes input).rest }) ∧
      Keeps id s t := by
  obtain ⟨t, ht, hserial, hmax, hr', hkeeps⟩ := deliver_courses hr h
  rw [onInput_eq hr, ht, herr]
  dsimp only
  rw [Call.bind_ok (modifyResponder_ok hr' _)]
  have hfind : (t.responders.modify id fun r' => { r' with
      deserializer := { r.deserializer with inputData := (r.takes input).rest } }).find id =
      some (r'.withInput { r.deserializer with inputData := (r.takes input).rest }) := by
    simp [hr', Responder.withInput]
  exact ⟨_, rfl, hserial, hmax, hfind, ⟨_, hfind⟩, hkeeps.quiet⟩

def inputChunks (rx : Regex) (id : ResponderId) : List Bytes → Call Server Unit
  | [] => pure ()
  | c :: cs => do
    onInput rx id c false
    inputChunks rx id cs

/-- However the input is cut, the responder goes through the messages it holds. -/
theorem inputChunks_courses {serial : UInt64} {r' : Responder} {chunks : List Bytes}
    {d : Drained UInt8 DataMessage Exception} (hr : s.responders.find id = some r)
    (hwait : (framer r.deserializer.version1Flag).front r.deserializer.inputData = .incomplete)
    (hbelow : Deserializer.StaysBelow r.deserializer.version1Flag r.deserializer.inputData chunks)
    (hd : (framer r.deserializer.version1Flag).drain
      (r.deserializer.inputData ++ chunks.flatten) = d)
    (herr : d.error = none)
    (h : r.courses rx s.maxOBuf s.lastSerial d.messages = some (serial, r')) :
    ∃ t, inputChunks rx id chunks s = .ok () t ∧ t.lastSerial = serial ∧
      t.maxOBuf = s.maxOBuf ∧
      t.responders.find id =
        some (r'.withInput { r.deserializer with inputData := d.rest }) ∧ Keeps id s t := by
  induction chunks generalizing s r r' d with
  | nil =>
    rw [List.flatten_nil, List.append_nil, Framer.drain_of_incomplete hwait] at hd
    subst hd
    obtain ⟨rfl, rfl⟩ := Prod.mk.inj (Option.some.inj h)
    exact ⟨s, rfl, rfl, rfl, hr, .refl hr⟩
  | cons c cs ih =>
    have htakes := takes_eq_drain hwait hbelow.1
    rw [List.flatten_cons, ← List.append_assoc, Framer.drain_append, ← htakes] at hd
    cases hfirst : (r.takes c).error with
    | some e =>
      rw [hfirst] at hd
      rw [← hd] at herr
      cases herr
    | none =>
      rw [hfirst] at hd
      subst hd
      simp only [Drained.prepend_messages, Responder.courses_append] at h
      obtain ⟨⟨serial1, r1⟩, h1, h2⟩ := Option.bind_eq_some_iff.mp h
      obtain ⟨t, ht, hserial, hmax, hr1, hkeeps⟩ := onInput_courses hr hfirst h1
      have hrest := Framer.front_drain_rest_of_ok (htakes ▸ hfirst)
      rw [← htakes] at hrest
      have h2' : (r1.withInput { r.deserializer with inputData := (r.takes c).rest }).courses rx
          s.maxOBuf serial1 ((framer r.deserializer.version1Flag).drain
            ((r.takes c).rest ++ cs.flatten)).messages = _ := Responder.courses_withInput _ _
      have hbelow' := hbelow.2 (htakes ▸ hfirst)
      rw [h2, ← hmax, ← hserial] at h2'
      rw [← htakes] at hbelow'
      obtain ⟨u, hu, hu1, hu2, hu3, hkeeps'⟩ := ih hr1 hrest hbelow' rfl herr h2'
      refine ⟨u, ?_, hu1, hu2.trans hmax, hu3, hkeeps.trans hkeeps'⟩
      rw [inputChunks, Call.bind_ok ht]
      exact hu

end Server

end TntPub
