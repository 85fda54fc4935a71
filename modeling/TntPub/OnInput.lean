import TntPub.Dispatch

namespace TntPub

open Framing

/-- What the deserializer of a responder takes from the input buffer of its socket. -/
def Responder.takes (r : Responder) (input : Bytes) : Drained UInt8 DataMessage Exception :=
  r.deserializer.drained (input.take (toUnsigned input.length))

namespace Server

variable {rx : Regex} {s t : Server} {id : ResponderId} {r r' : Responder} {m : DataMessage}

theorem announce_ok (h : handleMessage rx id m s = .ok () t)
    (ht : t.responders.find id = some r) :
    announce (handleMessage rx id) (emitMessage id) m s = .ok () t := by
  rw [announce, Call.bind_ok h, emitMessage, Call.bind_ok (accessResponder_ok ht)]
  rfl

/-- The deserializer emits its own signal after the callback, also when it was destroyed there. -/
theorem announce_destroyed (h : handleMessage rx id m s = .ok () t)
    (ht : t.responders.find id = none) :
    announce (handleMessage rx id) (emitMessage id) m s = .error .useAfterFree t := by
  have haccess : accessResponder id t = .error .useAfterFree t := by
    simp only [accessResponder, ht]
  rw [announce, Call.bind_ok h, emitMessage, Call.bind_error haccess]

theorem announce_thrown {e : Interrupt} (h : handleMessage rx id m s = .error e t) :
    announce (handleMessage rx id) (emitMessage id) m s = .error e t := by
  rw [announce, Call.bind_error h]

theorem announce_control (hr : s.responders.find id = some r) (hm : m.isDataMessage = false)
    (hc : r.control rx m = .ok r') :
    ∃ t, announce (handleMessage rx id) (emitMessage id) m s = .ok () t ∧ t.shared = s.shared ∧
      ∀ j, t.connection j =
        if j = id then ⟨some r', (s.connection id).events ++ .received id m :: signals id m⟩
        else s.connection j := by
  have hspec := handleMessage_control rx hr hm
  rw [hc] at hspec
  obtain ⟨t, ht, hshared, hparts⟩ := hspec
  have hown := congrArg Connection.responder (hparts id)
  simp only [if_true, connection_responder] at hown
  exact ⟨t, announce_ok ht hown, hshared, hparts⟩

theorem announce_rejected {e : Exception} (hr : s.responders.find id = some r)
    (hm : m.isDataMessage = false) (hc : r.control rx m = .error e) :
    ∃ t, announce (handleMessage rx id) (emitMessage id) m s = .error (.exception e) t ∧
      t.connection id = ⟨some r, (s.connection id).events ++ [.received id m]⟩ := by
  have hspec := handleMessage_control rx hr hm
  rw [hc] at hspec
  obtain ⟨t, ht, -, hparts⟩ := hspec
  exact ⟨t, announce_thrown ht, (hparts id).trans (if_pos rfl)⟩

theorem offer_own (rx : Regex) (hr : s.responders.find id = some r) (maxOBuf : Nat)
    (m k : DataMessage) :
    ((s.connection id).log (.received id m)).offer rx maxOBuf k id =
      if r.isSubscribed rx k.topic then
        if (r.queue k).exceeds maxOBuf then
          ⟨none, (s.connection id).events ++
            [.received id m, .outputBufferFull id, .clientDisconnected id]⟩
        else ⟨some (r.queue k), (s.connection id).events ++ [.received id m]⟩
      else ⟨some r, (s.connection id).events ++ [.received id m]⟩ := by
  simp only [Connection.offer, Connection.log, connection_responder, hr, List.append_assoc,
    List.cons_append, List.nil_append]

theorem announce_data (rx : Regex) (hr : s.responders.find id = some r)
    (hm : m.isDataMessage = true)
    (hroom : r.isSubscribed rx m.topic = true →
      (r.queue { m with serial := s.lastSerial + 1 }).exceeds s.maxOBuf = false) :
    ∃ t, announce (handleMessage rx id) (emitMessage id) m s = .ok () t ∧
      t.shared = ⟨s.lastSerial + 1, s.maxOBuf, s.shared.dispatches ++
        [({ m with serial := s.lastSerial + 1 }, s.responders.find)]⟩ ∧
      ∀ j, t.connection j =
        (if j = id then (s.connection j).log (.received id m) else s.connection j).offer rx
          s.maxOBuf { m with serial := s.lastSerial + 1 } j := by
  obtain ⟨t, ht, hshared, hparts⟩ := handleMessage_data rx s id hm
  have hown := hparts id
  rw [if_pos rfl, offer_own rx hr] at hown
  refine ⟨t, ?_, hshared, hparts⟩
  by_cases hsub : r.isSubscribed rx m.topic = true
  · simp only [hsub, hroom hsub, if_true, Bool.false_eq_true, if_false] at hown
    exact announce_ok ht (congrArg Connection.responder hown)
  · simp only [hsub, Bool.false_eq_true, if_false] at hown
    exact announce_ok ht (congrArg Connection.responder hown)

/-- A responder whose own message fills its own output destroys itself in the callback. -/
theorem announce_full (hr : s.responders.find id = some r) (hm : m.isDataMessage = true)
    (hsub : r.isSubscribed rx m.topic = true)
    (hfull : (r.queue { m with serial := s.lastSerial + 1 }).exceeds s.maxOBuf = true) :
    ∃ t, announce (handleMessage rx id) (emitMessage id) m s = .error .useAfterFree t := by
  obtain ⟨t, ht, -, hparts⟩ := handleMessage_data rx s id hm
  have hown := hparts id
  rw [if_pos rfl, offer_own rx hr] at hown
  simp only [hsub, hfull, if_true] at hown
  exact ⟨t, announce_destroyed ht (congrArg Connection.responder hown)⟩

/-- `Responder::onInput` with any callback for its messages. -/
def onInputWith (handler : DataMessage → Call Server Unit) (id : ResponderId) (input : Bytes)
    (eof : Bool) : Call Server Unit := fun s =>
  match s.responders.find id with
  | none => .error .useAfterFree s
  | some r =>
    match Deserializer.advance handler (emitMessage id) input (toUnsigned input.length)
        (r.deserializer, s) with
    | .ok _ (d, s) =>
      (do modifyResponder id fun r => { r with deserializer := d }
          if eof then closeClient id) s
    | .error .useAfterFree (_, s) => .error .useAfterFree s
    | .error (.exception _) (_, s) => catchException id s

theorem onInputWith_eq (handler : DataMessage → Call Server Unit)
    (hr : s.responders.find id = some r) (input : Bytes) (eof : Bool) :
    onInputWith handler id input eof s =
      match deliver handler (emitMessage id) (r.takes input).messages s with
      | .error .useAfterFree t => .error .useAfterFree t
      | .error (.exception _) t => catchException id t
      | .ok _ t =>
        match (r.takes input).error with
        | some _ => catchException id t
        | none =>
          (do modifyResponder id fun r' => { r' with
                deserializer := { r.deserializer with inputData := (r.takes input).rest } }
              if eof then closeClient id) t := by
  have hle : toUnsigned input.length ≤ input.length := Nat.mod_le _ _
  have hlen : (input.take (toUnsigned input.length)).length = toUnsigned input.length :=
    List.length_take_of_le hle
  have hsize : (input.take (toUnsigned input.length)).length < 2 ^ 32 := by
    rw [hlen]
    exact Nat.mod_lt _ (by norm_num)
  have hlocal : Deserializer.advance handler (emitMessage id)
      (input.take (toUnsigned input.length) ++ input.drop (toUnsigned input.length))
      (input.take (toUnsigned input.length)).length (r.deserializer, s) = _ :=
    Deserializer.advance_local (input.drop (toUnsigned input.length))
  have hadvance : outcome (Deserializer.advance handler (emitMessage id)
      (input.take (toUnsigned input.length)) (input.take (toUnsigned input.length)).length
      (r.deserializer, s)) = _ := Deserializer.outcome_advance hsize
  rw [List.take_append_drop, hlen] at hlocal
  rw [hlen, ← hlocal] at hadvance
  simp only [onInputWith, hr]
  change outcome _ = (receive _ _ (r.takes input) >>= _) s at hadvance
  simp only [receive, bind, EStateM.bind] at hadvance
  cases hd : deliver handler (emitMessage id) (r.takes input).messages s with
  | error e t =>
    rw [hd] at hadvance
    obtain ⟨d, h⟩ := Deserializer.outcome_eq_error hadvance
    rw [h]
    cases e <;> rfl
  | ok a t =>
    rw [hd] at hadvance
    cases herr : (r.takes input).error with
    | some e =>
      rw [herr] at hadvance
      obtain ⟨d, h⟩ := Deserializer.outcome_eq_error hadvance
      rw [h]
    | none =>
      rw [herr] at hadvance
      obtain ⟨d, h⟩ := Deserializer.outcome_eq_ok hadvance
      rw [h]

/-- `onInput` hands the messages one by one to the callback, then keeps what is left. -/
theorem onInput_eq (hr : s.responders.find id = some r) (input : Bytes) (eof : Bool) :
    onInput rx id input eof s =
      match deliver (handleMessage rx id) (emitMessage id) (r.takes input).messages s with
      | .error .useAfterFree t => .error .useAfterFree t
      | .error (.exception _) t => catchException id t
      | .ok _ t =>
        match (r.takes input).error with
        | some _ => catchException id t
        | none =>
          (do modifyResponder id fun r' => { r' with
                deserializer := { r.deserializer with inputData := (r.takes input).rest } }
              if eof then closeClient id) t :=
  onInputWith_eq (handleMessage rx id) hr input eof

end Server

end TntPub
