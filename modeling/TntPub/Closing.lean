import TntPub.Course

namespace TntPub

/-- One of the messages makes the output of the responder too large for its own
connection, before one of them is rejected. -/
def Responder.closesItself (rx : Regex) (maxOBuf : Nat) :
    UInt64 → Responder → List DataMessage → Bool
  | _, _, [] => false
  | serial, r, m :: ms =>
    match r.course rx maxOBuf serial m with
    | .kept serial r => closesItself rx maxOBuf serial r ms
    | .closed => true
    | .rejected _ => false

namespace Server

variable {rx : Regex} {s t : Server} {id : ResponderId} {r : Responder}

theorem deliver_closes {ms : List DataMessage} (hr : s.responders.find id = some r)
    (h : r.closesItself rx s.maxOBuf s.lastSerial ms = true) :
    ∃ t, deliver (handleMessage rx id) (emitMessage id) ms s = .error .useAfterFree t := by
  induction ms generalizing s r with
  | nil => cases h
  | cons m ms ih =>
    have hstep := announce_course rx hr m
    unfold Responder.closesItself at h
    cases hc : r.course rx s.maxOBuf s.lastSerial m with
    | kept serial r' =>
      rw [hc] at hstep h
      obtain ⟨t, ht, hserial, hmax, hr', -⟩ := hstep
      obtain ⟨u, hu⟩ := ih hr' (by rw [hserial, hmax]; exact h)
      exact ⟨u, by rw [deliver, Call.bind_ok ht]; exact hu⟩
    | closed =>
      rw [hc] at hstep
      obtain ⟨t, ht⟩ := hstep
      exact ⟨t, by rw [deliver, Call.bind_error ht]⟩
    | rejected e => rw [hc] at h; cases h

theorem deliver_keeps {ms : List DataMessage} (hr : s.responders.find id = some r)
    (h : r.closesItself rx s.maxOBuf s.lastSerial ms = false) :
    ∃ t, (deliver (handleMessage rx id) (emitMessage id) ms s = .ok () t ∨
        ∃ e, deliver (handleMessage rx id) (emitMessage id) ms s = .error (.exception e) t) ∧
      Keeps id s t := by
  induction ms generalizing s r with
  | nil => exact ⟨s, .inl rfl, .refl hr⟩
  | cons m ms ih =>
    have hstep := announce_course rx hr m
    unfold Responder.closesItself at h
    cases hc : r.course rx s.maxOBuf s.lastSerial m with
    | kept serial r' =>
      rw [hc] at hstep h
      obtain ⟨t, ht, hserial, hmax, hr', hkeeps⟩ := hstep
      obtain ⟨u, hu, hkeeps'⟩ := ih hr' (by rw [hserial, hmax]; exact h)
      refine ⟨u, ?_, hkeeps.trans hkeeps'⟩
      rw [deliver, Call.bind_ok ht]
      exact hu
    | closed => rw [hc] at h; cases h
    | rejected e =>
      rw [hc] at hstep
      obtain ⟨t, ht, hkeeps⟩ := hstep
      exact ⟨t, .inr ⟨e, by rw [deliver, Call.bind_error ht]⟩, hkeeps⟩

/-- The report that a connection is closed is made exactly if its responder is gone, once,
and nothing is handled or reported for the connection after it. -/
def Quiet (id : ResponderId) (s t : Server) : Prop :=
  ∃ new, (t.connection id).events = (s.connection id).events ++ new ∧
    (t.responders.find id = none ↔ .clientDisconnected id ∈ new) ∧
    ∀ before after, new = before ++ .clientDisconnected id :: after →
      .clientDisconnected id ∉ before ∧ after = []

theorem Keeps.toQuiet (h : Keeps id s t) : Quiet id s t := by
  obtain ⟨r, hr⟩ := h.alive
  obtain ⟨new, hnew, hquiet⟩ := h.quiet
  refine ⟨new, hnew, by simp [hr, hquiet], fun before after hsplit => ?_⟩
  simp [hsplit] at hquiet

theorem Keeps.close (h : Keeps id s t) : ∃ u, closeClient id t = .ok () u ∧ Quiet id s u := by
  obtain ⟨r, hr⟩ := h.alive
  obtain ⟨new, hnew, hquiet⟩ := h.quiet
  refine ⟨_, closeClient_ok hr, new ++ [.clientDisconnected id], ?_, by simp, ?_⟩
  · rw [← List.append_assoc, ← hnew]
    simp [connection, Event.isAbout]
  · intro before after hsplit
    rcases List.eq_nil_or_concat after with rfl | ⟨front, last, rfl⟩
    · have hbefore := List.append_inj_left' hsplit rfl
      exact ⟨hbefore ▸ hquiet, rfl⟩
    · rw [List.concat_eq_append, ← List.cons_append, ← List.append_assoc] at hsplit
      have hnew := List.append_inj_left' hsplit rfl
      simp [hnew] at hquiet

theorem Keeps.catchException (h : Keeps id s t) :
    ∃ u, catchException id t = .ok () u ∧ Quiet id s u := by
  obtain ⟨r, hr⟩ := h.alive
  obtain ⟨u, hu, hquiet⟩ := h.close
  exact ⟨u, by simp only [Server.catchException, hr, Option.isSome_some, if_true, hu], hquiet⟩

theorem Keeps.finish (h : Keeps id s t) (d : Deserializer) (eof : Bool) :
    ∃ u, (do modifyResponder id fun r => { r with deserializer := d }
             if eof then closeClient id : Call Server Unit) t = .ok () u ∧ Quiet id s u := by
  obtain ⟨r, hr⟩ := h.alive
  obtain ⟨new, hnew, hquiet⟩ := h.quiet
  rw [Call.bind_ok (modifyResponder_ok hr _)]
  have hkeeps : Keeps id s { t with
      responders := t.responders.modify id fun r => { r with deserializer := d } } :=
    ⟨⟨{ r with deserializer := d }, by simp [hr]⟩, new, hnew, hquiet⟩
  cases eof with
  | false => exact ⟨_, rfl, hkeeps.toQuiet⟩
  | true => exact hkeeps.close

/-- `onInput` returns without access to a destroyed object and is quiet after a close. -/
def QuietAfterClose (rx : Regex) (s : Server) (id : ResponderId) (input : Bytes) (eof : Bool) :
    Prop :=
  ∃ t, onInput rx id input eof s = .ok () t ∧ Quiet id s t

theorem not_quietAfterClose {input : Bytes} {eof : Bool} (hr : s.responders.find id = some r)
    (h : r.closesItself rx s.maxOBuf s.lastSerial (r.takes input).messages = true) :
    ¬ QuietAfterClose rx s id input eof := by
  rintro ⟨u, hu, -⟩
  obtain ⟨t, ht⟩ := deliver_closes hr h
  rw [onInput_eq hr, ht] at hu
  cases hu

/-- A responder is quiet after it was closed exactly if it was not closed by one of its own
messages. -/
theorem quietAfterClose_iff (rx : Regex) (s : Server) (id : ResponderId) (r : Responder)
    (input : Bytes) (eof : Bool) (hr : s.responders.find id = some r) :
    QuietAfterClose rx s id input eof ↔
      r.closesItself rx s.maxOBuf s.lastSerial (r.takes input).messages = false := by
  constructor
  · intro hquiet
    by_contra h
    exact not_quietAfterClose hr (by simpa using h) hquiet
  · intro h
    obtain ⟨t, ht, hkeeps⟩ := deliver_keeps hr h
    rw [QuietAfterClose, onInput_eq hr]
    rcases ht with ht | ⟨e, ht⟩
    · rw [ht]
      cases (r.takes input).error with
      | none => exact hkeeps.finish _ eof
      | some e => exact hkeeps.catchException
    · rw [ht]
      exact hkeeps.catchException

/-- The responder of a client that subscribed to the topic it publishes to. -/
def echo : Responder where
  subscriptions := [⟨some (.fullTopic { main := [0x61] })⟩]

def echoServer (maxOBuf : Nat) : Server where
  responders := Registry.empty.insert 0 echo
  maxOBuf := maxOBuf

theorem quietAfterClose_echo :
    QuietAfterClose .literal (echoServer 100) 0 (frames [.greeting, .greeting]) false :=
  (quietAfterClose_iff .literal (echoServer 100) 0 echo (frames [.greeting, .greeting]) false
    rfl).mpr (by decide +kernel)

/-- A client that receives its own message above a limit of 40 bytes is closed by the first
of its two frames. -/
theorem not_quietAfterClose_echo :
    ¬ ∀ rx s id r input eof, s.responders.find id = some r → QuietAfterClose rx s id input eof := by
  intro h
  have hquiet := h .literal (echoServer 40) 0 echo (frames [.greeting, .greeting]) false rfl
  exact not_quietAfterClose (s := echoServer 40) (r := echo) rfl (by decide +kernel) hquiet

end Server

end TntPub
