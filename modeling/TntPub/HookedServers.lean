import TntPub.Publishes

namespace TntPub

open Framing Broadcast

namespace HookedServer

open Server

variable {s t : Server} {id : ResponderId} {r : Responder} {m : DataMessage}

theorem handleMessage_data (rx : Regex) (hook : Hook) (s : Server) (id : ResponderId)
    (hm : m.isDataMessage = true) :
    handleMessage rx hook id m s = processMessage rx hook id { m with serial := s.lastSerial + 1 }
      { s with events := s.events ++ [.received id m], lastSerial := s.lastSerial + 1 } := by
  rw [handleMessage, Call.bind_ok (by rfl : emitEvent _ _ = .ok () _), if_pos hm]
  rfl

theorem handleMessage_control (rx : Regex) (hook : Hook) (s : Server) (id : ResponderId)
    (hm : m.isDataMessage = false) :
    handleMessage rx hook id m s = Server.handleMessage rx id m s := by
  have hneg : ¬ m.isDataMessage = true := by simp [hm]
  simp only [handleMessage, Server.handleMessage, if_neg hneg]

theorem control_kept {rx : Regex} {r' : Responder} (h : r.control rx m = .ok r') :
    r'.deserializer = r.deserializer ∧ r'.outputBuffer = r.outputBuffer := by
  cases haccepted : m.isAccepted rx with
  | true =>
    obtain ⟨q, hq, hdeserializer, houtput⟩ := r.control_accepted haccepted
    obtain rfl := Except.ok.inj (h.symm.trans hq)
    exact ⟨hdeserializer, houtput⟩
  | false =>
    obtain ⟨e, he⟩ := r.control_rejected haccepted
    rw [h] at he
    cases he

/-- Each message, whatever becomes of it, is one entry of the log. -/
theorem handleMessage_publishes (rx : Regex) (hook : Hook) (hr : s.responders.find id = some r)
    (m : DataMessage) :
    match handleMessage rx hook id m s with
    | .ok _ t => Publishes rx hook [(some id, m)] s t
    | .error (.exception _) t =>
      Publishes rx hook [(some id, m)] s t ∧ t.responders.find id = some r
    | .error .useAfterFree _ => False := by
  cases hm : m.isDataMessage with
  | true =>
    rw [handleMessage_data rx hook s id hm]
    let s' : Server :=
      { s with events := s.events ++ [.received id m], lastSerial := s.lastSerial + 1 }
    have hreceived : ∀ j, s'.connection j =
        if j = id then ⟨some r, (s.connection id).events ++ [.received id m]⟩
        else s.connection j := by
      refine connection_of_own s (fun j => ?_) rfl (by simp [Event.isAbout])
      split
      next hj => rw [← hr, hj]
      next => rfl
    have hhandled := handledFrom_received hreceived rfl
    cases hhook : hook id { m with serial := s.lastSerial + 1 } with
    | none =>
      simp only [processMessage, hhook]
      refine .silent ?_ (by simp [Log.published, hm, hhook]) hhandled
        fun j r' hr' => ⟨r', hr', rfl, rfl⟩
      simp [shared, Event.dispatch, Log.serialAfter, hm]
    | some k =>
      obtain ⟨t, ht, hshared, hparts⟩ := doSendMessage_spec rx k s'
      simp only [processMessage, hhook]
      rw [ht]
      refine .offered (k := k) ?_ (by simp [Log.published, hm, hhook])
        fun j => ⟨s'.connection j, hparts j, rfl, hhandled j⟩
      rw [hshared]
      simp [s', shared, Event.dispatch, Log.serialAfter, hm]
  | false =>
    rw [handleMessage_control rx hook s id hm]
    have hspec := Server.handleMessage_control rx hr hm
    have hserial : Log.serialAfter s.lastSerial [(some id, m)] = s.lastSerial := by
      simp [Log.serialAfter, hm]
    cases hc : r.control rx m with
    | ok r' =>
      rw [hc] at hspec
      obtain ⟨t, ht, hshared, hparts⟩ := hspec
      rw [ht]
      refine .silent (by rw [hshared, hserial]; rfl) (by simp [Log.published, hm])
        (handledFrom_received hparts signals_message) fun j q hq => ?_
      have hfind := congrArg Connection.responder (hparts j)
      rw [connection_responder, hq] at hfind
      split at hfind
      next hj =>
        obtain rfl := Option.some.inj hfind
        exact ⟨r, hj ▸ hr, control_kept hc⟩
      next => exact ⟨q, hfind.symm, rfl, rfl⟩
    | error e =>
      rw [hc] at hspec
      obtain ⟨t, ht, hshared, hparts⟩ := hspec
      rw [ht]
      have hown := congrArg Connection.responder (hparts id)
      rw [if_pos rfl] at hown
      refine ⟨.silent (by rw [hshared, hserial]; rfl) (by simp [Log.published, hm])
        (handledFrom_received hparts rfl) fun j q hq => ?_, hown⟩
      have hfind := congrArg Connection.responder (hparts j)
      rw [connection_responder, hq] at hfind
      split at hfind
      next hj =>
        obtain rfl := Option.some.inj hfind
        exact ⟨q, hj ▸ hr, rfl, rfl⟩
      next => exact ⟨q, hfind.symm, rfl, rfl⟩

/-- A callback that returns and leaves its responder alive is followed by the next message. -/
theorem announce_publishes (rx : Regex) (hook : Hook) (hr : s.responders.find id = some r)
    (m : DataMessage) :
    match announce (handleMessage rx hook id) (emitMessage id) m s with
    | .ok _ t => Publishes rx hook [(some id, m)] s t ∧ ∃ r', t.responders.find id = some r'
    | .error (.exception _) t =>
      Publishes rx hook [(some id, m)] s t ∧ ∃ r', t.responders.find id = some r'
    | .error .useAfterFree _ => True := by
  have hspec := handleMessage_publishes rx hook hr m
  cases h : handleMessage rx hook id m s with
  | error e t =>
    rw [h] at hspec
    rw [announce, Call.bind_error h]
    cases e with
    | exception e => exact ⟨hspec.1, r, hspec.2⟩
    | useAfterFree => trivial
  | ok a t =>
    rw [h] at hspec
    rw [announce, Call.bind_ok h]
    cases hfind : t.responders.find id with
    | none =>
      have haccess : accessResponder id t = .error .useAfterFree t := by
        simp only [accessResponder, hfind]
      rw [emitMessage, Call.bind_error haccess]
      trivial
    | some r' =>
      rw [emitMessage, Call.bind_ok (accessResponder_ok hfind)]
      exact ⟨hspec, r', hfind⟩

theorem deliver_publishes (rx : Regex) (hook : Hook) (hr : s.responders.find id = some r)
    (ms : List DataMessage) :
    match deliver (handleMessage rx hook id) (emitMessage id) ms s with
    | .ok _ t => Publishes rx hook (ms.map fun m => (some id, m)) s t ∧
        ∃ r', t.responders.find id = some r'
    | .error (.exception _) t => ∃ taken, taken <+: ms ∧
        Publishes rx hook (taken.map fun m => (some id, m)) s t ∧
        ∃ r', t.responders.find id = some r'
    | .error .useAfterFree _ => True := by
  induction ms generalizing s r with
  | nil => exact ⟨.refl s, r, hr⟩
  | cons m ms ih =>
    have hstep := announce_publishes rx hook hr m
    cases h : announce (handleMessage rx hook id) (emitMessage id) m s with
    | error e t =>
      rw [h] at hstep
      rw [deliver, Call.bind_error h]
      cases e with
      | exception e =>
        exact ⟨[m], List.prefix_append [m] ms, hstep⟩
      | useAfterFree => trivial
    | ok a t =>
      rw [h] at hstep
      obtain ⟨hone, r', hr'⟩ := hstep
      have hrest := ih hr'
      rw [deliver, Call.bind_ok h]
      cases hd : deliver (handleMessage rx hook id) (emitMessage id) ms t with
      | ok b u =>
        rw [hd] at hrest
        exact ⟨hone.trans hrest.1, hrest.2⟩
      | error e u =>
        rw [hd] at hrest
        cases e with
        | useAfterFree => trivial
        | exception e =>
          obtain ⟨taken, htaken, hmore, halive⟩ := hrest
          exact ⟨m :: taken, List.cons_prefix_cons.mpr ⟨rfl, htaken⟩, hone.trans hmore, halive⟩

/-- An input that returns has handled its messages, or some of them and closed the connection. -/
theorem onInput_publishes {rx : Regex} {hook : Hook} {input : Bytes} {eof : Bool}
    (hr : s.responders.find id = some r) (h : onInput rx hook id input eof s = .ok () t) :
    ∃ taken, taken <+: (r.takes input).messages ∧
      ((taken = (r.takes input).messages ∧ (r.takes input).error = none ∧ ∃ u,
        Publishes rx hook (taken.map fun m => (some id, m)) s u ∧ t = { u with
          responders := u.responders.modify id fun r' => { r' with
            deserializer := { r.deserializer with inputData := (r.takes input).rest } } }) ∨
      (Publishes rx hook (taken.map fun m => (some id, m)) s t ∧
        t.responders.find id = none)) := by
  have hdeliver := deliver_publishes rx hook hr (r.takes input).messages
  rw [onInput, onInputWith_eq _ hr] at h
  have hclosed {u : Server} {taken : List DataMessage}
      (hu : Publishes rx hook (taken.map fun m => (some id, m)) s u)
      (hclose : Publishes rx hook [] u t ∧ t.responders.find id = none) :
      Publishes rx hook (taken.map fun m => (some id, m)) s t ∧ t.responders.find id = none := by
    have htrans := hu.trans hclose.1
    rw [List.append_nil] at htrans
    exact ⟨htrans, hclose.2⟩
  cases hd : deliver (handleMessage rx hook id) (emitMessage id) (r.takes input).messages s with
  | error e u =>
    rw [hd] at hdeliver h
    cases e with
    | useAfterFree => cases h
    | exception e =>
      obtain ⟨taken, htaken, hu, q, hq⟩ := hdeliver
      exact ⟨taken, htaken, .inr (hclosed hu (catchException_publishes rx hook hq h))⟩
  | ok a u =>
    rw [hd] at hdeliver h
    obtain ⟨hu, q, hq⟩ := hdeliver
    refine ⟨_, List.prefix_rfl, ?_⟩
    cases herr : (r.takes input).error with
    | some e =>
      rw [herr] at h
      exact .inr (hclosed hu (catchException_publishes rx hook hq h))
    | none =>
      rw [herr] at h
      dsimp only at h
      rw [Call.bind_ok (modifyResponder_ok hq _)] at h
      cases eof with
      | false =>
        obtain ⟨-, rfl⟩ := EStateM.Result.ok.inj h
        exact .inl ⟨rfl, rfl, u, hu, rfl⟩
      | true =>
        have hfind : ({ u with responders := u.responders.modify id fun r' => { r' with
            deserializer := { r.deserializer with inputData := (r.takes input).rest } } } :
              Server).responders.find id = some { q with
            deserializer := { r.deserializer with inputData := (r.takes input).rest } } := by
          simp [hq]
        rw [if_pos rfl, closeClient_ok hfind] at h
        obtain ⟨-, rfl⟩ := EStateM.Result.ok.inj h
        refine .inr (hclosed hu (publishes_closed rx hook (fun j => ?_) rfl rfl rfl))
        by_cases hj : j = id
        · simp [hj]
        · simp [hj]

/-- A relation that the handling of each message keeps, a closing, and the end of the loop. -/
structure Keeps (rx : Regex) (hook : Hook) (id : ResponderId) (R : Server → Server → Prop) :
    Prop where
  refl : ∀ s, R s s
  trans : ∀ s t u, R s t → R t u → R s u
  handle : ∀ s r m, s.responders.find id = some r → match handleMessage rx hook id m s with
    | .ok _ t => R s t
    | .error (.exception _) t => R s t
    | .error .useAfterFree _ => True
  close : ∀ s r t, s.responders.find id = some r → catchException id s = .ok () t → R s t
  read : ∀ s d, R s { s with
    responders := s.responders.modify id fun r => { r with deserializer := d } }

section Keeps

variable {rx : Regex} {hook : Hook} {R : Server → Server → Prop}

theorem Keeps.announce (h : Keeps rx hook id R) (hr : s.responders.find id = some r)
    (m : DataMessage) :
    match announce (handleMessage rx hook id) (emitMessage id) m s with
    | .ok _ t => R s t
    | .error (.exception _) t => R s t
    | .error .useAfterFree _ => True := by
  have hspec := h.handle s r m hr
  cases hm : handleMessage rx hook id m s with
  | error e t =>
    rw [hm] at hspec
    rw [TntPub.announce, Call.bind_error hm]
    cases e with
    | exception e => exact hspec
    | useAfterFree => trivial
  | ok a t =>
    rw [hm] at hspec
    rw [TntPub.announce, Call.bind_ok hm]
    cases hfind : t.responders.find id with
    | none =>
      have haccess : accessResponder id t = .error .useAfterFree t := by
        simp only [accessResponder, hfind]
      rw [emitMessage, Call.bind_error haccess]
      trivial
    | some r' =>
      rw [emitMessage, Call.bind_ok (accessResponder_ok hfind)]
      exact hspec

theorem Keeps.deliver (h : Keeps rx hook id R) (hr : s.responders.find id = some r)
    (ms : List DataMessage) :
    match deliver (handleMessage rx hook id) (emitMessage id) ms s with
    | .ok _ t => R s t
    | .error (.exception _) t => R s t
    | .error .useAfterFree _ => True := by
  induction ms generalizing s r with
  | nil => exact h.refl s
  | cons m ms ih =>
    have hstep := h.announce hr m
    have halive := announce_publishes rx hook hr m
    cases hm : TntPub.announce (handleMessage rx hook id) (emitMessage id) m s with
    | error e t =>
      rw [hm] at hstep
      rw [TntPub.deliver, Call.bind_error hm]
      cases e with
      | exception e => exact hstep
      | useAfterFree => trivial
    | ok a t =>
      rw [hm] at hstep halive
      obtain ⟨-, r', hr'⟩ := halive
      have hrest := ih hr'
      rw [TntPub.deliver, Call.bind_ok hm]
      cases hd : TntPub.deliver (handleMessage rx hook id) (emitMessage id) ms t with
      | ok b u =>
        rw [hd] at hrest
        exact h.trans s t u hstep hrest
      | error e u =>
        rw [hd] at hrest
        cases e with
        | useAfterFree => trivial
        | exception e => exact h.trans s t u hstep hrest

theorem Keeps.onInput {input : Bytes} {eof : Bool} (h : Keeps rx hook id R)
    (hr : s.responders.find id = some r)
    (hinput : onInput rx hook id input eof s = .ok () t) : R s t := by
  have hdeliver := h.deliver hr (r.takes input).messages
  have halive := deliver_publishes rx hook hr (r.takes input).messages
  rw [HookedServer.onInput, onInputWith_eq _ hr] at hinput
  cases hd : TntPub.deliver (handleMessage rx hook id) (emitMessage id) (r.takes input).messages s
  with
  | error e u =>
    rw [hd] at hdeliver halive hinput
    cases e with
    | useAfterFree => cases hinput
    | exception e =>
      obtain ⟨-, -, -, q, hq⟩ := halive
      exact h.trans s u t hdeliver (h.close u q t hq hinput)
  | ok a u =>
    rw [hd] at hdeliver halive hinput
    obtain ⟨-, q, hq⟩ := halive
    cases herr : (r.takes input).error with
    | some e =>
      rw [herr] at hinput
      exact h.trans s u t hdeliver (h.close u q t hq hinput)
    | none =>
      rw [herr] at hinput
      dsimp only at hinput
      rw [Call.bind_ok (modifyResponder_ok hq _)] at hinput
      have hread := h.trans s u _ hdeliver
        (h.read u { r.deserializer with inputData := (r.takes input).rest })
      cases eof with
      | false =>
        obtain ⟨-, rfl⟩ := EStateM.Result.ok.inj hinput
        exact hread
      | true =>
        obtain ⟨q', hq', hcatch⟩ := closeClient_returned hinput
        exact h.trans s _ t hread (h.close _ q' t hq' hcatch)

end Keeps

end HookedServer

end TntPub
