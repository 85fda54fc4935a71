import TntPub.Reaction

namespace TntPub

open Framing

namespace Client

/-- The loop of `onInput` where a call of the slot throws when these many have returned. -/
def processInputThrowsWith (react : Reaction) (counts : List Nat) :
    Nat → Nat → Client → Option Client
  | 0, _, _ => none
  | fuel + 1, before, c =>
    let keep (m : DataMessage) : Call DataMessage Unit := set m
    match Deserializer.processMessage keep noSlots (c.deserializer, c.dataMessage) with
    | .ok true (d, m) =>
      let c := { c with deserializer := d, dataMessage := m }
      match (react m)[before]? with
      | some (call, _) =>
        (c.dispatchMessage.calls ((react m).take before)).bind fun c => c.callThrows counts call
      | none =>
        (c.dispatchMessage.calls (react m)).bind fun c =>
          processInputThrowsWith react counts fuel (before - (react m).length) c
    | .ok false _ => none
    | .error _ _ => none

/-- `Client::onInput` with such a slot and its `catch` block. -/
def onInputThrowsWith (react : Reaction) (c : Client) (input : Bytes) (before : Nat)
    (counts : List Nat) (unreported : Nat) : Option Client :=
  let d := c.deserializer.addData input input.length
  let c := { c with
    reading := false
    deserializer := d
    exchange := { c.exchange with input := c.exchange.input ++ [input] } }
  (c.processInputThrowsWith react counts (d.inputData.length + 1) before).map
    (·.inputError unreported)

/-- What has come of a call that throws: the messages for which the slot has returned, its calls
that have returned, and the call. -/
structure Broken where
  returned : Nat
  calls : List (ClientCall × List Nat)
  call : ClientCall

def breakOff (react : Reaction) : Nat → List DataMessage → Option Broken
  | _, [] => none
  | before, m :: ms =>
    match (react m)[before]? with
    | some (call, _) => some ⟨0, (react m).take before, call⟩
    | none =>
      (breakOff react (before - (react m).length) ms).map fun b =>
        { b with returned := b.returned + 1, calls := react m ++ b.calls }

variable {c c' : Client}

/-- The loop of `onInput` leaves the output side alone also when a slot throws. -/
theorem processInputThrows_withInput (fuel returned : Nat) (c d : Client) :
    (c.withInput d).processInputThrows fuel returned =
      (d.processInputThrows fuel returned).map (c.withInput ·) := by
  induction fuel generalizing d returned with
  | zero => rfl
  | succ fuel ih =>
    have hd : (c.withInput d).deserializer = d.deserializer := rfl
    have hm : (c.withInput d).dataMessage = d.dataMessage := rfl
    simp only [processInputThrows, hd, hm]
    split
    next e m _ =>
      cases returned with
      | zero => rfl
      | succ returned =>
        exact ih returned ({ d with deserializer := e, dataMessage := m } : Client).dispatchMessage
    next => rfl
    next => rfl

theorem processInputThrowsWith_frame {react : Reaction} {counts : List Nat}
    {fuel n before : Nat} {m : DataMessage}
    (hf : frontUnsigned c.deserializer.version1Flag c.deserializer.inputData = .frame m n) :
    c.processInputThrowsWith react counts (fuel + 1) before =
      match (react m)[before]? with
      | some (call, _) =>
        ((Session.taken c m n).dispatchMessage.calls ((react m).take before)).bind fun c =>
          c.callThrows counts call
      | none =>
        ((Session.taken c m n).dispatchMessage.calls (react m)).bind fun c =>
          c.processInputThrowsWith react counts fuel (before - (react m).length) := by
  simp only [processInputThrowsWith, Session.processMessage_taken hf]
  rfl

theorem withInput_processInputThrows {fuel returned : Nat}
    (h : c.processInputThrows fuel returned = some c') : c.withInput c' = c' := by
  have hself := processInputThrows_withInput fuel returned c c
  rw [show c.withInput c = c from rfl, h] at hself
  exact (Option.some.inj hself).symm

/-- The calls for one message and the rest of the loop can change places. -/
theorem bind_rest (react : Reaction) (counts : List Nat) (fuel before : Nat) (c : Client)
    (l : List (ClientCall × List Nat))
    (ih : ∀ d, c.calls l = some d → d.processInputThrowsWith react counts fuel before =
      (breakOff react before (drainFuel (frontUnsigned d.deserializer.version1Flag) fuel
        d.deserializer.inputData).messages).bind fun b =>
          (d.processInputThrows fuel b.returned).bind fun c =>
            (c.calls b.calls).bind fun c => c.callThrows counts b.call) :
    ((c.calls l).bind fun d => d.processInputThrowsWith react counts fuel before) =
      (breakOff react before (drainFuel (frontUnsigned c.deserializer.version1Flag) fuel
        c.deserializer.inputData).messages).bind fun b =>
          (c.processInputThrows fuel b.returned).bind fun c =>
            (c.calls (l ++ b.calls)).bind fun c => c.callThrows counts b.call := by
  have hloop (b : Broken) : ((c.processInputThrows fuel b.returned).bind fun c =>
      (c.calls (l ++ b.calls)).bind fun c => c.callThrows counts b.call) =
      (c.calls l).bind fun d => (d.processInputThrows fuel b.returned).bind fun c =>
        (c.calls b.calls).bind fun c => c.callThrows counts b.call := by
    have hcalls (e : Client) (he : c.processInputThrows fuel b.returned = some e) :
        e.calls l = (c.calls l).map (·.withInput e) := by
      rw [← calls_withInput, withInput_processInputThrows he]
    cases hl : c.calls l with
    | none =>
      cases he : c.processInputThrows fuel b.returned with
      | none => rfl
      | some e =>
        have hnone := hcalls e he
        rw [hl] at hnone
        simp only [Option.bind_some, calls_append, hnone, Option.map_none, Option.bind_none]
    | some d =>
      have hinput := withInput_of_calls hl
      have hrest := processInputThrows_withInput fuel b.returned d c
      rw [hinput] at hrest
      rw [Option.bind_some, hrest]
      cases he : c.processInputThrows fuel b.returned with
      | none => rfl
      | some e =>
        have hsome := hcalls e he
        rw [hl] at hsome
        simp only [Option.bind_some, calls_append, hsome, Option.map_some]
  simp only [hloop]
  cases hl : c.calls l with
  | none => simp
  | some d =>
    have hdeserializer : d.deserializer = c.deserializer := by
      rw [← withInput_of_calls hl]
      rfl
    rw [Option.bind_some, ih d hl, hdeserializer]
    rfl

/-- The calls that return can as well be made when the loop has been left. -/
theorem processInputThrowsWith_eq (react : Reaction) (counts : List Nat) (fuel before : Nat)
    (c : Client) :
    c.processInputThrowsWith react counts fuel before =
      (breakOff react before (drainFuel (frontUnsigned c.deserializer.version1Flag) fuel
        c.deserializer.inputData).messages).bind fun b =>
          (c.processInputThrows fuel b.returned).bind fun c =>
            (c.calls b.calls).bind fun c => c.callThrows counts b.call := by
  induction fuel generalizing c before with
  | zero => rfl
  | succ fuel ih =>
    cases hf : frontUnsigned c.deserializer.version1Flag c.deserializer.inputData with
    | incomplete =>
      simp only [processInputThrowsWith, Deserializer.processMessage_incomplete hf, drainFuel, hf,
        breakOff, Option.bind_none]
    | fail e =>
      simp only [processInputThrowsWith, Deserializer.processMessage_fail hf, drainFuel, hf,
        breakOff, Option.bind_none]
    | frame m n =>
      rw [processInputThrowsWith_frame hf]
      simp only [drainFuel, hf, Drained.prepend_messages, List.singleton_append, breakOff]
      cases hcall : (react m)[before]? with
      | some first =>
        obtain ⟨call, own⟩ := first
        simp only [Option.bind_some, processInputThrows_frame hf]
      | none =>
        rw [Option.bind_map]
        refine (bind_rest react counts fuel (before - (react m).length)
          (Session.taken c m n).dispatchMessage (react m) fun d hd => ?_).trans ?_
        · exact ih _ d
        · congr 1
          funext b
          simp only [Function.comp_apply, processInputThrows_frame hf]

/-- The messages of the calls that return and of the one that throws. -/
def Broken.messages (b : Broken) : List DataMessage :=
  (b.calls.filterMap fun call => call.1.message) ++ b.call.message.toList

theorem messages_eq (b : Broken) (own : List Nat) :
    ((b.calls ++ [(b.call, own)]).filterMap fun call => call.1.message) = b.messages := by
  rw [List.filterMap_append, Broken.messages]
  cases hm : b.call.message with
  | none => simp [hm]
  | some m => simp [hm]

/-- All calls that return are among the reactions, and so is the one that throws. -/
theorem breakOff_calls {react : Reaction} {before : Nat} {ms : List DataMessage} {b : Broken}
    (h : breakOff react before ms = some b) :
    b.returned < ms.length ∧ (ms.take b.returned).flatMap react <+: b.calls ∧
      ∃ counts, b.calls ++ [(b.call, counts)] <+: (ms.take (b.returned + 1)).flatMap react := by
  induction ms generalizing before b with
  | nil => cases h
  | cons m ms ih =>
    unfold breakOff at h
    split at h
    next call counts hcall =>
      obtain rfl := Option.some.inj h
      obtain ⟨hlt, hget⟩ := List.getElem?_eq_some_iff.mp hcall
      refine ⟨Nat.succ_pos _, List.nil_prefix, counts, ?_⟩
      show (react m).take before ++ [(call, counts)] <+: (List.take 1 (m :: ms)).flatMap react
      rw [← hget, List.take_append_getElem hlt]
      simpa using List.take_prefix (before + 1) (react m)
    next =>
      obtain ⟨rest, hrest, rfl⟩ := Option.map_eq_some_iff.mp h
      obtain ⟨hlt, hfront, counts, hall⟩ := ih hrest
      refine ⟨Nat.succ_lt_succ hlt, ?_, counts, ?_⟩
      · exact (List.prefix_append_right_inj (react m)).mpr hfront
      · show (react m ++ rest.calls) ++ [(rest.call, counts)] <+: _
        rw [List.append_assoc]
        exact (List.prefix_append_right_inj (react m)).mpr hall

/-- Where a slot makes one call at most, these are all calls for the messages so far. -/
theorem breakOff_messages {react : Reaction} {before : Nat} {ms : List DataMessage} {b : Broken}
    (hreact : ∀ m, (react m).length ≤ 1) (h : breakOff react before ms = some b) :
    replies react (ms.take (b.returned + 1)) = b.messages := by
  obtain ⟨hlt, hfront, own, hall⟩ := breakOff_calls h
  have hlength : ((ms.take (b.returned + 1)).flatMap react).length ≤
      (b.calls ++ [(b.call, own)]).length := by
    have hlast := hreact ms[b.returned]
    have hcalls := hfront.length_le
    rw [← List.take_append_getElem hlt, List.flatMap_append, List.flatMap_singleton,
      List.length_append, List.length_append, List.length_singleton]
    omega
  rw [replies, ← hall.eq_of_length_le hlength, messages_eq]

theorem onInputThrowsWith_eq (react : Reaction) (c : Client) (input : Bytes) (before : Nat)
    (counts : List Nat) (unreported : Nat) :
    c.onInputThrowsWith react input before counts unreported =
      (breakOff react before (c.deserializer.takesAll input).messages).bind fun b =>
        (c.onInputThrows input b.returned).bind fun c =>
          (c.calls b.calls).bind fun c =>
            (c.callThrows counts b.call).map (·.inputError unreported) := by
  unfold onInputThrowsWith onInputThrows
  simp only [Deserializer.addData_all, processInputThrowsWith_eq, Option.map_bind,
    Function.comp_def]
  rfl

/-- What a read has come to when a call of the slot throws. -/
theorem onInputThrowsWith_passes {react : Reaction} {input : Bytes} {before unreported : Nat}
    {counts : List Nat}
    (h : c.onInputThrowsWith react input before counts unreported = some c') :
    ∃ b, breakOff react before (c.deserializer.takesAll input).messages = some b ∧
      c'.exchange.dispatched = c.exchange.dispatched ++
        (c.deserializer.takesAll input).messages.take (b.returned + 1) ∧
      c'.accepted = c.accepted ++ b.messages ∧ c'.connected = false := by
  rw [onInputThrowsWith_eq] at h
  obtain ⟨b, hb, h⟩ := Option.bind_eq_some_iff.mp h
  obtain ⟨d, hd, h⟩ := Option.bind_eq_some_iff.mp h
  obtain ⟨e, he, h⟩ := Option.bind_eq_some_iff.mp h
  obtain ⟨f, hf, rfl⟩ := Option.map_eq_some_iff.mp h
  obtain ⟨-, -, -, hdispatched, hsame⟩ := onInputThrows_left hd
  obtain ⟨haccepted, hthrown⟩ := callThrows_kept hf
  refine ⟨b, hb, ?_, ?_, rfl⟩
  · show f.exchange.dispatched = _
    rw [hthrown.dispatched, (calls_input he).dispatched, hdispatched]
  · show f.accepted = _
    rw [haccepted, accepted_of_calls he, hsame.accepted, List.append_assoc]
    rfl

end Client

end TntPub
