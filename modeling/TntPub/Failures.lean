import TntPub.HandlerCalls

namespace TntPub

open Framing

namespace Client

/-- What a loop of blocking writes has written when the one behind these counts throws. -/
def writeThrows (buffer : Bytes) : List Nat → Option Bytes
  | [] => if buffer.isEmpty then none else some []
  | count :: counts =>
    if buffer.isEmpty then none
    else if count ≤ buffer.length then
      (writeThrows (buffer.drop count) counts).map fun written => buffer.take count ++ written
    else none

/-- `doSendMessage` up to the `IOError` of `write` or `beginWrite`. -/
def doSendMessageThrows (c : Client) (m : DataMessage) (counts : List Nat) : Option Client :=
  let c := { c with accepted := c.accepted ++ [m] }
  if c.autoSync then
    let c := { c with outputBuffer := m.appendTo c.outputBuffer }
    (writeThrows c.outputBuffer counts).map fun written =>
      { c.write written with outputBuffer := c.outputBuffer.drop written.length }
  else if c.pending.isSome then none
  else some { c with outputBuffer := m.appendTo c.outputBuffer }

/-- `flush` up to the `IOError` of `endWrite` or of a `write` for one of the buffers. -/
def flushThrows (c : Client) (counts : List Nat) : Option Client :=
  if c.pending.isSome && counts.isEmpty then some c
  else (c.finishWrite counts).bind fun (c, counts) =>
    match writeAll c.outputBuffer counts with
    | none => (writeThrows c.outputBuffer counts).map fun written =>
        { c.write written with outputBuffer := c.outputBuffer.drop written.length }
    | some (written, counts) =>
      let c := c.write written
      let c := { c with outputBuffer := [] }
      (writeThrows c.outputBufferNext counts).map fun written =>
        { c.write written with outputBufferNext := c.outputBufferNext.drop written.length }

def setAutoSyncThrows (c : Client) (sw : Bool) (counts : List Nat) : Option Client :=
  if sw then { c with autoSync := sw }.flushThrows counts else none

/-- A call that throws an `IOError` when the writes that return have reported the counts. -/
def callThrows (c : Client) (counts : List Nat) : ClientCall → Option Client
  | .sendMessage m => c.doSendMessageThrows m counts
  | .subscribe o topic type data =>
    c.doSendMessageThrows (DataMessage.subscribe o topic type data) counts
  | .subscribeWithObject o topic obj type =>
    c.doSendMessageThrows (DataMessage.subscribeWithObject id o topic obj type) counts
  | .unsubscribe o topic type =>
    c.doSendMessageThrows (DataMessage.unsubscribe o topic type) counts
  | .flush => c.flushThrows counts
  | .autoSync sw => c.setAutoSyncThrows sw counts

variable {c c' : Client}

theorem writeThrows_front {buffer written : Bytes} {counts : List Nat}
    (h : writeThrows buffer counts = some written) : written <+: buffer := by
  induction counts generalizing buffer written with
  | nil =>
    obtain ⟨-, hwritten⟩ := Option.ite_none_left_eq_some.mp h
    obtain rfl := Option.some.inj hwritten
    exact List.nil_prefix
  | cons count counts ih =>
    obtain ⟨-, h⟩ := Option.ite_none_left_eq_some.mp h
    obtain ⟨-, hmap⟩ := Option.ite_none_right_eq_some.mp h
    obtain ⟨rest, hrest, rfl⟩ := Option.map_eq_some_iff.mp hmap
    have hcut := (List.prefix_append_right_inj (buffer.take count)).mpr (ih hrest)
    rwa [List.take_append_drop] at hcut

theorem doSendMessageThrows_kept {m : DataMessage} {counts : List Nat}
    (h : c.doSendMessageThrows m counts = some c') :
    c'.accepted = c.accepted ++ [m] ∧ SameInput c c' := by
  unfold doSendMessageThrows at h
  dsimp only at h
  split at h
  next =>
    obtain ⟨written, -, rfl⟩ := Option.map_eq_some_iff.mp h
    exact ⟨rfl, rfl, rfl, rfl, rfl, rfl, rfl⟩
  next =>
    split at h
    next => cases h
    next =>
      obtain rfl := Option.some.inj h
      exact ⟨rfl, rfl, rfl, rfl, rfl, rfl, rfl⟩

theorem flushThrows_kept {counts : List Nat} (h : c.flushThrows counts = some c') :
    c'.accepted = c.accepted ∧ SameInput c c' := by
  unfold flushThrows at h
  split at h
  next =>
    obtain rfl := Option.some.inj h
    exact ⟨rfl, .refl c⟩
  next =>
    obtain ⟨⟨d, left⟩, hfinish, h⟩ := Option.bind_eq_some_iff.mp h
    have haccepted := accepted_of_finishWrite hfinish
    have hsame := finishWrite_input hfinish
    dsimp only at h
    split at h
    next =>
      obtain ⟨written, -, rfl⟩ := Option.map_eq_some_iff.mp h
      exact ⟨haccepted, hsame.1, hsame.2, hsame.3, hsame.4, hsame.5, hsame.6⟩
    next =>
      obtain ⟨written, -, rfl⟩ := Option.map_eq_some_iff.mp h
      exact ⟨haccepted, hsame.1, hsame.2, hsame.3, hsame.4, hsame.5, hsame.6⟩

/-- A call that throws has taken over its message, and leaves the input side alone. -/
theorem callThrows_kept {call : ClientCall} {counts : List Nat}
    (h : c.callThrows counts call = some c') :
    c'.accepted = c.accepted ++ call.message.toList ∧ SameInput c c' := by
  cases call with
  | sendMessage m => exact doSendMessageThrows_kept h
  | subscribe o topic type data => exact doSendMessageThrows_kept h
  | subscribeWithObject o topic obj type => exact doSendMessageThrows_kept h
  | unsubscribe o topic type => exact doSendMessageThrows_kept h
  | flush =>
    obtain ⟨haccepted, hsame⟩ := flushThrows_kept h
    exact ⟨haccepted.trans (List.append_nil _).symm, hsame⟩
  | autoSync sw =>
    obtain ⟨-, hflush⟩ := Option.ite_none_right_eq_some.mp h
    obtain ⟨haccepted, hsame⟩ := flushThrows_kept hflush
    exact ⟨haccepted.trans (List.append_nil _).symm, hsame.1, hsame.2, hsame.3, hsame.4, hsame.5,
      hsame.6⟩

theorem Buffered.handed (h : c.Buffered) :
    c.exchange.output ++ c.pending.getD [] <+: frames c.accepted := by
  rw [← h.whole]
  cases hp : c.pending with
  | none =>
    rw [List.append_assoc]
    exact (List.prefix_append_right_inj _).mpr List.nil_prefix
  | some region =>
    rw [Option.getD_some, h.region region hp]
    exact List.prefix_append _ _

theorem Buffered.doSendMessageThrows {m : DataMessage} {counts : List Nat} (h : c.Buffered)
    (hthrows : c.doSendMessageThrows m counts = some c') :
    c'.exchange.output ++ c'.pending.getD [] <+: frames c'.accepted := by
  have hwhole := h.whole
  unfold Client.doSendMessageThrows at hthrows
  dsimp only at hthrows
  split at hthrows
  next hsync =>
    have hpending := h.sync hsync
    obtain ⟨hbuffer, hnext⟩ := h.idle hpending
    obtain ⟨written, hwritten, rfl⟩ := Option.map_eq_some_iff.mp hthrows
    have hfront := writeThrows_front hwritten
    rw [hbuffer, hnext, List.append_nil, List.append_nil] at hwhole
    rw [hbuffer, DataMessage.appendTo, List.nil_append] at hfront
    show (c.exchange.output ++ written) ++ c.pending.getD [] <+: frames (c.accepted ++ [m])
    rw [hpending, Option.getD_none, List.append_nil, hwhole, frames_append]
    simpa using (List.prefix_append_right_inj (frames c.accepted)).mpr hfront
  next =>
    split at hthrows
    next => cases hthrows
    next hnone =>
      have hpending : c.pending = none := by simpa using hnone
      obtain ⟨hbuffer, hnext⟩ := h.idle hpending
      obtain rfl := Option.some.inj hthrows
      rw [hbuffer, hnext, List.append_nil, List.append_nil] at hwhole
      show c.exchange.output ++ c.pending.getD [] <+: frames (c.accepted ++ [m])
      rw [hpending, Option.getD_none, List.append_nil, hwhole, frames_append]
      exact List.prefix_append _ _

theorem Buffered.flushThrows {sw : Bool} {counts : List Nat} (h : c.Buffered)
    (hthrows : { c with autoSync := sw }.flushThrows counts = some c') :
    c'.exchange.output ++ c'.pending.getD [] <+: frames c'.accepted := by
  unfold Client.flushThrows at hthrows
  split at hthrows
  next =>
    obtain rfl := Option.some.inj hthrows
    exact h.handed
  next =>
    obtain ⟨⟨d, left⟩, hfinish, hthrows⟩ := Option.bind_eq_some_iff.mp hthrows
    obtain ⟨count, rfl⟩ := finishWrite_eq (c := { c with autoSync := sw }) h.region hfinish
    have hfront {part : Bytes}
        (hpart : part <+: c.outputBuffer.drop count ++ c.outputBufferNext) :
        (c.exchange.output ++ c.outputBuffer.take count) ++ part <+: frames c.accepted := by
      have hwhole : c.exchange.output ++ c.outputBuffer.take count ++
          (c.outputBuffer.drop count ++ c.outputBufferNext) = frames c.accepted := by
        rw [← List.append_assoc, List.append_assoc c.exchange.output, List.take_append_drop,
          h.whole]
      rw [← hwhole]
      exact (List.prefix_append_right_inj _).mpr hpart
    dsimp only at hthrows
    split at hthrows
    next =>
      obtain ⟨written, hwritten, rfl⟩ := Option.map_eq_some_iff.mp hthrows
      have hpart := (writeThrows_front hwritten).trans
        (List.prefix_append _ c.outputBufferNext)
      simpa only [write, Option.getD_none, List.append_nil, List.append_assoc] using hfront hpart
    next all left' hall =>
      obtain rfl := writeAll_eq hall
      obtain ⟨written, hwritten, rfl⟩ := Option.map_eq_some_iff.mp hthrows
      have hpart := (List.prefix_append_right_inj (c.outputBuffer.drop count)).mpr
        (writeThrows_front hwritten)
      simpa only [write, Option.getD_none, List.append_nil, List.append_assoc] using hfront hpart

/-- A call that throws has written a front part of what it was to write. -/
theorem Buffered.callThrows {call : ClientCall} {counts : List Nat} (h : c.Buffered)
    (hthrows : c.callThrows counts call = some c') :
    c'.exchange.output ++ c'.pending.getD [] <+: frames c'.accepted := by
  cases call with
  | sendMessage m => exact h.doSendMessageThrows hthrows
  | subscribe o topic type data => exact h.doSendMessageThrows hthrows
  | subscribeWithObject o topic obj type => exact h.doSendMessageThrows hthrows
  | unsubscribe o topic type => exact h.doSendMessageThrows hthrows
  | flush =>
    have hsame : { c with autoSync := c.autoSync }.flushThrows counts = some c' := hthrows
    exact h.flushThrows hsame
  | autoSync sw =>
    obtain ⟨-, hflush⟩ := Option.ite_none_right_eq_some.mp hthrows
    exact h.flushThrows hflush

/-- What becomes of a client whose call has thrown: it is closed by the `catch` block of `onInput`,
or by that of `onOutput` or the application. -/
def abandon (c : Client) (inInput : Bool) (unreported : Nat) : Client :=
  if inInput then c.inputError unreported else c.closePeer unreported

theorem abandon_same (c : Client) (inInput : Bool) (unreported : Nat) :
    (c.abandon inInput unreported).connected = false ∧
      (c.abandon inInput unreported).accepted = c.accepted ∧
      (c.abandon inInput unreported).exchange.dispatched = c.exchange.dispatched := by
  cases inInput with
  | true => exact ⟨rfl, rfl, rfl⟩
  | false => exact ⟨rfl, rfl, rfl⟩

theorem closePeer_handed (unreported : Nat)
    (h : c.exchange.output ++ c.pending.getD [] <+: frames c.accepted) :
    (c.closePeer unreported).exchange.output ++ (c.closePeer unreported).pending.getD [] <+:
      frames c.accepted := by
  have hcut : c.exchange.output ++ (c.pending.getD []).take unreported <+:
      c.exchange.output ++ c.pending.getD [] :=
    (List.prefix_append_right_inj _).mpr (List.take_prefix _ _)
  simp only [closePeer, write, Option.getD_none, List.append_nil]
  exact hcut.trans h

/-- The loop of `onInput` where the slots of `messageReceived` return for some messages and
throw for the next one. -/
def processInputThrows : Nat → Nat → Client → Option Client
  | 0, _, _ => none
  | fuel + 1, returned, c =>
    let keep (m : DataMessage) : Call DataMessage Unit := set m
    match Deserializer.processMessage keep noSlots (c.deserializer, c.dataMessage) with
    | .ok true (d, m) =>
      let c := { c with deserializer := d, dataMessage := m }
      match returned with
      | 0 => some c.dispatchMessage
      | returned + 1 => processInputThrows fuel returned c.dispatchMessage
    | .ok false _ => none
    | .error _ _ => none

/-- `Client::onInput` up to such a slot. -/
def onInputThrows (c : Client) (input : Bytes) (returned : Nat) : Option Client :=
  let d := c.deserializer.addData input input.length
  processInputThrows (d.inputData.length + 1) returned { c with
    reading := false
    deserializer := d
    exchange := { c.exchange with input := c.exchange.input ++ [input] } }

/-- What the loop has done when it is left: it has dispatched these messages. -/
structure LeftWith (c c' : Client) (ms : List DataMessage) : Prop where
  reading : c'.reading = c.reading
  input : c'.exchange.input = c.exchange.input
  dispatched : c'.exchange.dispatched = c.exchange.dispatched ++ ms
  output : SameOutput c c'

theorem processInputThrows_frame {fuel n returned : Nat} {m : DataMessage}
    (hf : frontUnsigned c.deserializer.version1Flag c.deserializer.inputData = .frame m n) :
    c.processInputThrows (fuel + 1) returned =
      match returned with
      | 0 => some (Session.taken c m n).dispatchMessage
      | returned + 1 =>
        (Session.taken c m n).dispatchMessage.processInputThrows fuel returned := by
  simp only [processInputThrows, Session.processMessage_taken hf]
  cases returned with
  | zero => rfl
  | succ returned => rfl

theorem processInputThrows_left {fuel returned : Nat}
    (h : c.processInputThrows fuel returned = some c') :
    returned < (drainFuel (frontUnsigned c.deserializer.version1Flag) fuel
        c.deserializer.inputData).messages.length ∧
      LeftWith c c' ((drainFuel (frontUnsigned c.deserializer.version1Flag) fuel
        c.deserializer.inputData).messages.take (returned + 1)) := by
  induction fuel generalizing c returned with
  | zero => cases h
  | succ fuel ih =>
    cases hf : frontUnsigned c.deserializer.version1Flag c.deserializer.inputData with
    | incomplete =>
      simp only [processInputThrows, Deserializer.processMessage_incomplete hf] at h
      cases h
    | fail e =>
      simp only [processInputThrows, Deserializer.processMessage_fail hf] at h
      cases h
    | frame m n =>
      rw [processInputThrows_frame hf] at h
      simp only [drainFuel, hf, Drained.prepend_messages, List.singleton_append, List.length_cons,
        List.take_succ_cons]
      cases returned with
      | zero =>
        obtain rfl := Option.some.inj h
        exact ⟨Nat.succ_pos _, rfl, rfl, rfl, rfl, rfl, rfl, rfl, rfl, rfl, rfl, rfl, rfl⟩
      | succ returned =>
        obtain ⟨hlt, hleft⟩ := ih h
        have hsame := hleft.output
        refine ⟨Nat.succ_lt_succ hlt, hleft.reading, hleft.input, ?_, ⟨hsame.1, hsame.2, hsame.3,
          hsame.4, hsame.5, hsame.6, hsame.7, hsame.8, hsame.9⟩⟩
        rw [hleft.dispatched]
        exact List.append_assoc _ [m] _

/-- Then the read is over, and nothing more is read. -/
theorem onInputThrows_left {input : Bytes} {returned : Nat}
    (h : c.onInputThrows input returned = some c') :
    returned < (c.deserializer.takesAll input).messages.length ∧ c'.reading = false ∧
      c'.exchange.input = c.exchange.input ++ [input] ∧
      c'.exchange.dispatched = c.exchange.dispatched ++
        (c.deserializer.takesAll input).messages.take (returned + 1) ∧ SameOutput c c' := by
  unfold onInputThrows at h
  simp only [Deserializer.addData_all] at h
  obtain ⟨hlt, hleft⟩ := processInputThrows_left h
  have hsame := hleft.output
  exact ⟨hlt, hleft.reading, hleft.input, hleft.dispatched,
    ⟨hsame.1, hsame.2, hsame.3, hsame.4, hsame.5, hsame.6, hsame.7, hsame.8, hsame.9⟩⟩

end Client

/-- What an event of its client means to a program: its event loop goes on, the signal `closed`
is emitted, or an exception leaves the event loop. -/
inductive Aftermath
  | goesOn
  | closed
  | uncaught

/-- `onInput` emits `closed` at the end of the input and when it has caught an `IOError`; what the
deserializer throws leaves it. -/
def Client.aftermath (c : Client) : ClientEvent → Aftermath
  | .input bytes ending =>
    if (c.deserializer.takesAll bytes).error.isSome then .uncaught
    else
      match ending with
      | .more => .goesOn
      | .eof => .closed
      | .failed _ => .closed
  | .endReadFailed _ => .closed
  | _ => .goesOn

end TntPub
