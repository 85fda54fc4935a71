import TntPub.Failures

namespace TntPub

open Framing

/-- What a slot of `messageReceived` does with the client it belongs to: the calls it makes for
a message, with the counts that their blocking writes report. -/
abbrev Reaction := DataMessage → List (ClientCall × List Nat)

namespace Client

/-- The loop of `onInput` with such a slot. -/
def processInputWith (react : Reaction) : Nat → Client → Option (Client × Option Interrupt)
  | 0, c => some (c, none)
  | fuel + 1, c =>
    let keep (m : DataMessage) : Call DataMessage Unit := set m
    match Deserializer.processMessage keep noSlots (c.deserializer, c.dataMessage) with
    | .ok true (d, m) =>
      let c := { c with deserializer := d, dataMessage := m }
      (c.dispatchMessage.calls (react m)).bind fun c => processInputWith react fuel c
    | .ok false (d, m) => some ({ c with deserializer := d, dataMessage := m }, none)
    | .error e (d, m) => some ({ c with deserializer := d, dataMessage := m }, some e)

/-- `Client::onInput` with such a slot. -/
def onInputWith (react : Reaction) (c : Client) (input : Bytes) (ending : InputEnd) :
    Option Client :=
  let d := c.deserializer.addData input input.length
  let c := { c with
    reading := false
    deserializer := d
    exchange := { c.exchange with input := c.exchange.input ++ [input] } }
  (c.processInputWith react (d.inputData.length + 1)).map fun
    | (c, some _) => c
    | (c, none) =>
      match ending with
      | .more => { c with reading := true }
      | .eof => c
      | .failed unreported => c.inputError unreported

/-- The calls that the messages in an input bring about. -/
def reactions (react : Reaction) (c : Client) (input : Bytes) : List (ClientCall × List Nat) :=
  (c.deserializer.takesAll input).messages.flatMap react

/-- The output side of one client with the input side of another. -/
def withInput (c d : Client) : Client :=
  { c with
    reading := d.reading
    deserializer := d.deserializer
    dataMessage := d.dataMessage
    exchange := { c.exchange with
      input := d.exchange.input
      dispatched := d.exchange.dispatched } }

section Sides

variable {c c' d : Client}

theorem endWrite_withInput (c d : Client) (count : Nat) :
    (c.withInput d).endWrite count = (c.endWrite count).map (·.withInput d) := by
  have hpending : (c.withInput d).pending = c.pending := rfl
  unfold endWrite
  rw [hpending]
  cases c.pending with
  | none => rfl
  | some region =>
    dsimp only
    split <;> rfl

theorem doSendMessage_withInput (c d : Client) (m : DataMessage) (counts : List Nat) :
    (c.withInput d).doSendMessage m counts = (c.doSendMessage m counts).map (·.withInput d) := by
  unfold doSendMessage
  show (if c.autoSync then _ else if c.pending.isSome then _ else _) = _
  dsimp only
  split
  next =>
    show ((writeAll (m.appendTo c.outputBuffer) counts).bind _) = _
    cases writeAll (m.appendTo c.outputBuffer) counts <;> rfl
  next =>
    split <;> rfl

theorem finishWrite_withInput (c d : Client) (counts : List Nat) :
    (c.withInput d).finishWrite counts =
      (c.finishWrite counts).map fun (c, left) => (c.withInput d, left) := by
  have hpending : (c.withInput d).pending = c.pending := rfl
  cases counts with
  | nil =>
    simp only [finishWrite, hpending]
    split <;> rfl
  | cons count counts =>
    simp only [finishWrite, hpending, endWrite_withInput]
    split
    next => cases c.endWrite count <;> rfl
    next => rfl

theorem flush_withInput (c d : Client) (counts : List Nat) :
    (c.withInput d).flush counts = (c.flush counts).map (·.withInput d) := by
  unfold flush
  rw [finishWrite_withInput]
  cases c.finishWrite counts with
  | none => rfl
  | some finished =>
    obtain ⟨e, left⟩ := finished
    show ((writeAll e.outputBuffer left).bind _) =
      Option.map _ ((writeAll e.outputBuffer left).bind _)
    cases writeAll e.outputBuffer left with
    | none => rfl
    | some written =>
      obtain ⟨bytes, left'⟩ := written
      show ((writeAll e.outputBufferNext left').bind _) =
        Option.map _ ((writeAll e.outputBufferNext left').bind _)
      cases writeAll e.outputBufferNext left' <;> rfl

theorem call_withInput (c d : Client) (counts : List Nat) (call : ClientCall) :
    (c.withInput d).call counts call = (c.call counts call).map (·.withInput d) := by
  cases call with
  | sendMessage m => exact doSendMessage_withInput c d m counts
  | subscribe o topic type data => exact doSendMessage_withInput c d _ counts
  | subscribeWithObject o topic obj type => exact doSendMessage_withInput c d _ counts
  | unsubscribe o topic type => exact doSendMessage_withInput c d _ counts
  | flush => exact flush_withInput c d counts
  | autoSync sw =>
    cases sw with
    | true => exact flush_withInput { c with autoSync := true } d counts
    | false => rfl

/-- The functions that send leave the input side alone, whatever it is. -/
theorem calls_withInput (c d : Client) (l : List (ClientCall × List Nat)) :
    (c.withInput d).calls l = (c.calls l).map (·.withInput d) := by
  induction l generalizing c with
  | nil => rfl
  | cons first rest ih =>
    obtain ⟨call, counts⟩ := first
    simp only [calls, call_withInput]
    cases c.call counts call with
    | none => rfl
    | some e => exact ih e

theorem calls_append (c : Client) (l more : List (ClientCall × List Nat)) :
    c.calls (l ++ more) = (c.calls l).bind fun c => c.calls more := by
  induction l generalizing c with
  | nil => rfl
  | cons first rest ih =>
    obtain ⟨call, counts⟩ := first
    simp only [List.cons_append, calls]
    cases c.call counts call with
    | none => rfl
    | some e => exact ih e

theorem withInput_of_calls {l : List (ClientCall × List Nat)} (h : c.calls l = some c') :
    c'.withInput c = c' := by
  have hself := calls_withInput c c l
  rw [show c.withInput c = c from rfl, h] at hself
  exact (Option.some.inj hself).symm

/-- The loop of `onInput` leaves the output side alone, whatever it is. -/
theorem processInput_withInput (fuel : Nat) (c d : Client) :
    (c.withInput d).processInput fuel =
      (c.withInput (d.processInput fuel).1, (d.processInput fuel).2) := by
  induction fuel generalizing d with
  | zero => rfl
  | succ fuel ih =>
    have hd : (c.withInput d).deserializer = d.deserializer := rfl
    have hm : (c.withInput d).dataMessage = d.dataMessage := rfl
    simp only [processInput, hd, hm]
    split
    next e m _ => exact ih ({ d with deserializer := e, dataMessage := m } : Client).dispatchMessage
    next => rfl
    next => rfl

theorem withInput_processInput (fuel : Nat) (c : Client) :
    c.withInput (c.processInput fuel).1 = (c.processInput fuel).1 :=
  (congrArg Prod.fst (processInput_withInput fuel c c)).symm

theorem processInputWith_frame {react : Reaction} {fuel n : Nat} {m : DataMessage}
    (hf : frontUnsigned c.deserializer.version1Flag c.deserializer.inputData = .frame m n) :
    c.processInputWith react (fuel + 1) =
      ((Session.taken c m n).dispatchMessage.calls (react m)).bind fun c =>
        c.processInputWith react fuel := by
  simp only [processInputWith, Session.processMessage_taken hf]
  rfl

/-- The calls of the slot can as well be made when the loop has ended. -/
theorem processInputWith_eq (react : Reaction) (fuel : Nat) (c : Client) :
    c.processInputWith react fuel =
      ((c.processInput fuel).1.calls ((drainFuel (frontUnsigned c.deserializer.version1Flag) fuel
        c.deserializer.inputData).messages.flatMap react)).map
          fun d => (d, (c.processInput fuel).2) := by
  induction fuel generalizing c with
  | zero => rfl
  | succ fuel ih =>
    cases hf : frontUnsigned c.deserializer.version1Flag c.deserializer.inputData with
    | incomplete =>
      simp only [processInputWith, processInput, Deserializer.processMessage_incomplete hf,
        drainFuel, hf, List.flatMap_nil, calls, Option.map_some]
    | fail e =>
      simp only [processInputWith, processInput, Deserializer.processMessage_fail hf,
        drainFuel, hf, List.flatMap_nil, calls, Option.map_some]
    | frame m n =>
      rw [processInputWith_frame hf, Session.clientProcessInput_frame hf]
      simp only [drainFuel, hf, Drained.prepend_messages, List.singleton_append,
        List.flatMap_cons, calls_append]
      have hread := withInput_processInput fuel (Session.taken c m n).dispatchMessage
      rw [← hread, calls_withInput]
      cases hcalls : (Session.taken c m n).dispatchMessage.calls (react m) with
      | none => rfl
      | some d =>
        have hinput := withInput_of_calls hcalls
        have hloop := processInput_withInput fuel d (Session.taken c m n).dispatchMessage
        rw [hinput] at hloop
        have hrest := ih d
        rw [hloop] at hrest
        have hdeserializer : d.deserializer = (Session.taken c m n).deserializer := by
          rw [← hinput]
          rfl
        rw [hdeserializer] at hrest
        exact hrest

theorem calls_reading {l : List (ClientCall × List Nat)} (c : Client) :
    ({ c with reading := true } : Client).calls l =
      (c.calls l).map fun d => { d with reading := true } := by
  have hside := calls_withInput c { c with reading := true } l
  rw [show c.withInput { c with reading := true } = { c with reading := true } from rfl] at hside
  rw [hside]
  cases hcalls : c.calls l with
  | none => rfl
  | some d =>
    have hinput := withInput_of_calls hcalls
    have hboth : d.withInput { c with reading := true } =
        { d.withInput c with reading := true } := rfl
    rw [Option.map_some, Option.map_some, hboth, hinput]

/-- The calls of a slot can as well be made behind `onInput`, but before a read fails that
cannot be begun. -/
theorem onInputWith_eq (react : Reaction) (c : Client) (input : Bytes) (ending : InputEnd) :
    c.onInputWith react input ending =
      match (c.deserializer.takesAll input).error, ending with
      | none, .failed unreported =>
        ((c.onInput input .more).calls (c.reactions react input)).map (·.inputError unreported)
      | _, _ => (c.onInput input ending).calls (c.reactions react input) := by
  have hloop := processInputWith_eq react ((c.deserializer.inputData ++ input).length + 1)
    (Session.begun c input)
  obtain ⟨last, hclient⟩ := processInput_eq ((c.deserializer.inputData ++ input).length + 1)
    (Session.begun c input)
  have htakes : drainFuel (frontUnsigned (Session.begun c input).deserializer.version1Flag)
      ((c.deserializer.inputData ++ input).length + 1)
      (Session.begun c input).deserializer.inputData = c.deserializer.takesAll input := rfl
  rw [htakes] at hloop
  have herr := congrArg Prod.snd hclient
  rw [htakes] at herr
  have hbegin : c.onInputWith react input ending =
      ((Session.begun c input).processInputWith react
        ((c.deserializer.inputData ++ input).length + 1)).map fun
          | (c, some _) => c
          | (c, none) =>
            match ending with
            | .more => { c with reading := true }
            | .eof => c
            | .failed unreported => c.inputError unreported := by
    simp only [onInputWith, Deserializer.addData_all]
    rfl
  rw [hbegin, hloop, Option.map_map]
  simp only [Session.clientOnInput_begun]
  have hlength : (Session.begun c input).deserializer.inputData.length =
      (c.deserializer.inputData ++ input).length := rfl
  simp only [hlength]
  cases hp : (Session.begun c input).processInput
      ((c.deserializer.inputData ++ input).length + 1) with
  | mk d e =>
    rw [hp] at herr
    obtain rfl : e = (c.deserializer.takesAll input).error.map .exception := herr
    cases (c.deserializer.takesAll input).error with
    | some e => exact Option.map_id'
    | none =>
      cases ending with
      | more => exact (calls_reading d).symm
      | eof => exact Option.map_id'
      | failed unreported =>
        show _ = (Client.calls { d with reading := true } _).map _
        rw [calls_reading, Option.map_map]
        rfl

/-- The messages that such a slot passes on. -/
def replies (react : Reaction) (ms : List DataMessage) : List DataMessage :=
  (ms.flatMap react).filterMap fun call => call.1.message

theorem replies_append (react : Reaction) (ms ns : List DataMessage) :
    replies react (ms ++ ns) = replies react ms ++ replies react ns := by
  simp only [replies, List.flatMap_append, List.filterMap_append]

theorem onInputWith_passes {react : Reaction} {input : Bytes} {ending : InputEnd}
    (h : c.onInputWith react input ending = some c') :
    c'.exchange.dispatched =
        c.exchange.dispatched ++ (c.deserializer.takesAll input).messages ∧
      c'.accepted = c.accepted ++ replies react (c.deserializer.takesAll input).messages := by
  have hcalls {ending : InputEnd} {e : Client}
      (h : (c.onInput input ending).calls (c.reactions react input) = some e) :
      e.exchange.dispatched =
          c.exchange.dispatched ++ (c.deserializer.takesAll input).messages ∧
        e.accepted = c.accepted ++ replies react (c.deserializer.takesAll input).messages := by
    obtain ⟨last, hlast⟩ := onInput_eq c input ending
    have hread : (c.onInput input ending).exchange.dispatched =
          c.exchange.dispatched ++ (c.deserializer.takesAll input).messages ∧
        (c.onInput input ending).accepted = c.accepted := by
      rw [hlast]
      split <;> exact ⟨rfl, rfl⟩
    exact ⟨(calls_input h).dispatched.trans hread.1,
      (accepted_of_calls h).trans (congrArg (· ++ _) hread.2)⟩
  rw [onInputWith_eq] at h
  split at h
  next =>
    obtain ⟨e, he, rfl⟩ := Option.map_eq_some_iff.mp h
    have hpasses := hcalls he
    exact hpasses
  next => exact hcalls h

end Sides

end Client

end TntPub
