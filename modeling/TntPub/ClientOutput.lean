import TntPub.Client
import TntPub.Runs

namespace TntPub

namespace Client

variable {c c' : Client}

theorem writeAll_eq {buffer written : Bytes} {counts left : List Nat}
    (h : writeAll buffer counts = some (written, left)) : written = buffer := by
  induction counts generalizing buffer written left with
  | nil =>
    simp only [writeAll] at h
    split at h
    next hempty =>
      rw [List.isEmpty_iff.mp hempty]
      exact (Prod.mk.inj (Option.some.inj h)).1.symm
    next => cases h
  | cons count counts ih =>
    simp only [writeAll] at h
    split at h
    next hempty =>
      rw [List.isEmpty_iff.mp hempty]
      exact (Prod.mk.inj (Option.some.inj h)).1.symm
    next =>
      split at h
      next =>
        obtain ⟨⟨rest, left'⟩, hrest, hpair⟩ := Option.map_eq_some_iff.mp h
        obtain ⟨rfl, -⟩ := Prod.mk.inj hpair
        rw [ih hrest, List.take_append_drop]
      next => cases h

theorem endWrite_eq {count : Nat} (h : c.endWrite count = some c') :
    ∃ region, c.pending = some region ∧ count ≤ region.length ∧
      c' = { c with
        exchange := { c.exchange with output := c.exchange.output ++ region.take count }
        pending := none
        outputBuffer := c.outputBuffer.drop count } := by
  unfold endWrite at h
  split at h
  next => cases h
  next region hregion =>
    split at h
    next hle => exact ⟨region, hregion, hle, (Option.some.inj h).symm⟩
    next => cases h

theorem doSendMessage_cases {m : DataMessage} {counts : List Nat}
    (h : c.doSendMessage m counts = some c') :
    (c.autoSync = true ∧ c' = { c with
      accepted := c.accepted ++ [m]
      exchange := { c.exchange with
        output := c.exchange.output ++ (c.outputBuffer ++ m.frame) }
      outputBuffer := [] }) ∨
    (c.autoSync = false ∧ c.pending.isSome = true ∧ c' = { c with
      accepted := c.accepted ++ [m]
      outputBufferNext := c.outputBufferNext ++ m.frame }) ∨
    (c.autoSync = false ∧ c.pending = none ∧ c' = { c with
      accepted := c.accepted ++ [m]
      outputBuffer := c.outputBuffer ++ m.frame
      pending := some (c.outputBuffer ++ m.frame) }) := by
  unfold doSendMessage at h
  dsimp only at h
  split at h
  next hsync =>
    obtain ⟨⟨written, left⟩, hwritten, hc'⟩ := Option.bind_eq_some_iff.mp h
    have heq := writeAll_eq hwritten
    subst heq
    exact .inl ⟨hsync, (Option.some.inj hc').symm⟩
  next hsync =>
    have hasync : c.autoSync = false := by simpa using hsync
    split at h
    next hpending => exact .inr (.inl ⟨hasync, hpending, (Option.some.inj h).symm⟩)
    next hpending =>
      have hnone : c.pending = none := by simpa using hpending
      exact .inr (.inr ⟨hasync, hnone, (Option.some.inj h).symm⟩)

/-- The memory of a pending write is the output buffer as it is now. -/
def Region (c : Client) : Prop := ∀ region, c.pending = some region → region = c.outputBuffer

theorem finishWrite_eq {counts left : List Nat} (hregion : c.Region)
    (h : c.finishWrite counts = some (c', left)) :
    ∃ count, c' = { c with
      exchange := { c.exchange with
        output := c.exchange.output ++ c.outputBuffer.take count }
      pending := none
      outputBuffer := c.outputBuffer.drop count } := by
  have hidle : c.pending.isSome = false → ∃ count, c = { c with
      exchange := { c.exchange with
        output := c.exchange.output ++ c.outputBuffer.take count }
      pending := none
      outputBuffer := c.outputBuffer.drop count } := by
    intro hnone
    have hpending : c.pending = none := by simpa using hnone
    refine ⟨0, ?_⟩
    rw [List.take_zero, List.append_nil, List.drop_zero, ← hpending]
  cases counts with
  | nil =>
    simp only [finishWrite] at h
    split at h
    next => cases h
    next hnone =>
      obtain ⟨rfl, -⟩ := Prod.mk.inj (Option.some.inj h)
      exact hidle (by simpa using hnone)
  | cons count counts =>
    simp only [finishWrite] at h
    split at h
    next =>
      obtain ⟨d, hd, hpair⟩ := Option.map_eq_some_iff.mp h
      obtain ⟨rfl, -⟩ := Prod.mk.inj hpair
      obtain ⟨region, hpending, -, hd'⟩ := endWrite_eq hd
      rw [hregion region hpending] at hd'
      exact ⟨count, hd'⟩
    next hnone =>
      obtain ⟨rfl, -⟩ := Prod.mk.inj (Option.some.inj h)
      exact hidle (by simpa using hnone)

theorem flush_eq {counts : List Nat} (hregion : c.Region) (h : c.flush counts = some c') :
    c' = { c with
      exchange := { c.exchange with
        output := c.exchange.output ++ c.outputBuffer ++ c.outputBufferNext }
      pending := none
      outputBuffer := []
      outputBufferNext := [] } := by
  obtain ⟨⟨d, counts1⟩, hd, h⟩ := Option.bind_eq_some_iff.mp h
  obtain ⟨⟨written, counts2⟩, hwritten, h⟩ := Option.bind_eq_some_iff.mp h
  obtain ⟨⟨writtenNext, counts3⟩, hnext, h⟩ := Option.bind_eq_some_iff.mp h
  obtain ⟨count, rfl⟩ := finishWrite_eq hregion hd
  obtain rfl := writeAll_eq hwritten
  obtain rfl := writeAll_eq hnext
  rw [← Option.some.inj h]
  simp only [write, List.append_assoc]
  rw [← List.append_assoc (c.outputBuffer.take count), List.take_append_drop]

/-- What every way to pass on a message and `flush` keep, any sequence of calls keeps. -/
theorem calls_keep (Inv : Client → Prop) {l : List (ClientCall × List Nat)}
    (send : ∀ c m counts c', (∃ call ∈ l, call.1.message = some m) → Inv c →
      c.doSendMessage m counts = some c' → Inv c')
    (flush : ∀ c sw counts c', Inv c → { c with autoSync := sw }.flush counts = some c' → Inv c')
    (async : ∀ c, Inv c → Inv { c with autoSync := false })
    (hc : Inv c) (h : c.calls l = some c') : Inv c' := by
  induction l generalizing c with
  | nil => cases Option.some.inj h; exact hc
  | cons first rest ih =>
    obtain ⟨call, counts⟩ := first
    obtain ⟨d, hd, hrest⟩ := Option.bind_eq_some_iff.mp h
    have hsend (m : DataMessage) (hm : call.message = some m)
        (hd : c.doSendMessage m counts = some d) : Inv d :=
      send c m counts d ⟨(call, counts), List.mem_cons_self, hm⟩ hc hd
    refine ih (fun c m counts c' hm => ?_) ?_ hrest
    · obtain ⟨other, hother, hm⟩ := hm
      exact send c m counts c' ⟨other, List.mem_cons_of_mem _ hother, hm⟩
    · cases call with
      | sendMessage m => exact hsend m rfl hd
      | subscribe o topic type data => exact hsend _ rfl hd
      | subscribeWithObject o topic obj type => exact hsend _ rfl hd
      | unsubscribe o topic type => exact hsend _ rfl hd
      | flush => exact flush c c.autoSync counts d hc hd
      | autoSync sw =>
        cases sw with
        | true => exact flush c true counts d hc hd
        | false => cases Option.some.inj hd; exact async c hc

theorem onOutput_cases {count : Nat} {handler : List (ClientCall × List Nat)}
    (hregion : c.Region) (h : c.onOutput count handler = some c') :
    c.pending = some c.outputBuffer ∧
      ((c.outputBuffer.drop count = [] ∧ c.outputBufferNext = [] ∧
        calls { c with
          exchange := { c.exchange with output := c.exchange.output ++ c.outputBuffer }
          pending := none
          outputBuffer := []
          messagesSent := c.messagesSent ++
            [(c.exchange.output ++ c.outputBuffer, c.accepted)] } handler = some c') ∨
      c' = { c with
        exchange := { c.exchange with
          output := c.exchange.output ++ c.outputBuffer.take count }
        outputBuffer := c.outputBuffer.drop count ++ c.outputBufferNext
        outputBufferNext := []
        pending := some (c.outputBuffer.drop count ++ c.outputBufferNext) }) := by
  obtain ⟨d, hd, h⟩ := Option.bind_eq_some_iff.mp h
  obtain ⟨region, hpending, hle, rfl⟩ := endWrite_eq hd
  obtain rfl := hregion region hpending
  refine ⟨hpending, ?_⟩
  dsimp only at h
  split at h
  next hempty =>
    have hnil := List.isEmpty_iff.mp hempty
    have htake : c.outputBuffer.take count = c.outputBuffer := by
      have hsplit := List.take_append_drop count c.outputBuffer
      rwa [hnil, List.append_nil] at hsplit
    split at h
    next hnext =>
      rw [htake, hnil] at h
      exact .inl ⟨hnil, List.isEmpty_iff.mp hnext, h⟩
    next =>
      refine .inr ((Option.some.inj h).symm.trans ?_)
      simp only [beginWrite, hnil, List.nil_append]
  next =>
    split at h
    next hnext =>
      refine .inr ((Option.some.inj h).symm.trans ?_)
      have hnil := List.isEmpty_iff.mp hnext
      simp only [beginWrite, hnil, List.append_nil]
    next => exact .inr (Option.some.inj h).symm

theorem accepted_of_finishWrite {counts left : List Nat}
    (h : c.finishWrite counts = some (c', left)) : c'.accepted = c.accepted := by
  cases counts with
  | nil =>
    simp only [finishWrite] at h
    split at h
    next => cases h
    next => rw [← (Prod.mk.inj (Option.some.inj h)).1]
  | cons count counts =>
    simp only [finishWrite] at h
    split at h
    next =>
      obtain ⟨d, hd, hpair⟩ := Option.map_eq_some_iff.mp h
      obtain ⟨rfl, -⟩ := Prod.mk.inj hpair
      obtain ⟨region, -, -, rfl⟩ := endWrite_eq hd
      rfl
    next => rw [← (Prod.mk.inj (Option.some.inj h)).1]

theorem accepted_of_flush {counts : List Nat} (h : c.flush counts = some c') :
    c'.accepted = c.accepted := by
  obtain ⟨⟨d, counts1⟩, hd, h⟩ := Option.bind_eq_some_iff.mp h
  obtain ⟨⟨written, counts2⟩, -, h⟩ := Option.bind_eq_some_iff.mp h
  obtain ⟨⟨writtenNext, counts3⟩, -, h⟩ := Option.bind_eq_some_iff.mp h
  have hkept := accepted_of_finishWrite hd
  rw [← Option.some.inj h]
  exact hkept

/-- The messages of the calls are passed on, one after the other. -/
theorem accepted_of_calls {l : List (ClientCall × List Nat)} (h : c.calls l = some c') :
    c'.accepted = c.accepted ++ l.filterMap fun call => call.1.message := by
  induction l generalizing c with
  | nil => cases Option.some.inj h; simp
  | cons first rest ih =>
    obtain ⟨call, counts⟩ := first
    obtain ⟨d, hd, hrest⟩ := Option.bind_eq_some_iff.mp h
    have hfirst : d.accepted = c.accepted ++ call.message.toList := by
      have hsend {m : DataMessage} (hd : c.doSendMessage m counts = some d) :
          d.accepted = c.accepted ++ [m] := by
        rcases doSendMessage_cases hd with ⟨-, rfl⟩ | ⟨-, -, rfl⟩ | ⟨-, -, rfl⟩ <;> rfl
      cases call with
      | sendMessage m => exact hsend hd
      | subscribe o topic type data => exact hsend hd
      | subscribeWithObject o topic obj type => exact hsend hd
      | unsubscribe o topic type => exact hsend hd
      | flush => exact (accepted_of_flush hd).trans (List.append_nil _).symm
      | autoSync sw =>
        cases sw with
        | true => exact (accepted_of_flush hd).trans (List.append_nil _).symm
        | false => cases Option.some.inj hd; exact (List.append_nil _).symm
    rw [ih hrest, hfirst, List.filterMap_cons, List.append_assoc]
    cases call.message <;> rfl

/-- What is passed on comes from the slots of `messagesSent`, if these are called. -/
theorem accepted_of_output {count : Nat} {handler : List (ClientCall × List Nat)}
    (h : c.onOutput count handler = some c') :
    c'.accepted = c.accepted ∨
      c'.accepted = c.accepted ++ handler.filterMap fun call => call.1.message := by
  obtain ⟨d, hd, h⟩ := Option.bind_eq_some_iff.mp h
  obtain ⟨region, -, -, rfl⟩ := endWrite_eq hd
  dsimp only at h
  split at h
  next =>
    split at h
    next =>
      have hcalls := accepted_of_calls h
      exact .inr hcalls
    next => exact .inl (by rw [← Option.some.inj h]; rfl)
  next =>
    split at h
    next => exact .inl (by rw [← Option.some.inj h]; rfl)
    next => exact .inl (by rw [← Option.some.inj h]; rfl)

theorem step_cases {e : ClientEvent} (h : c.step e = some c') :
    match e with
    | .call call counts => c.connected = true ∧ c.calls [(call, counts)] = some c'
    | .output count handler => c.connected = true ∧ c.onOutput count handler = some c'
    | .endWriteFailed unreported =>
      (c.connected = true ∧ c.pending.isSome = true) ∧ c' = c.closePeer unreported
    | .beginWriteFailed count => c.connected = true ∧
      ∃ d, c.onOutput count [] = some d ∧ d.pending.isSome = true ∧ c' = d.closePeer 0
    | .input bytes ending => (c.connected = true ∧ c.reading = true) ∧ c' = c.onInput bytes ending
    | .endReadFailed unreported =>
      (c.connected = true ∧ c.reading = true) ∧ c' = c.inputError unreported
    | .close unreported => c' = c.closePeer unreported
    | .connect unreported => c' = c.connect unreported := by
  cases e with
  | call call counts =>
    obtain ⟨hc, hcall⟩ := Option.ite_none_right_eq_some.mp h
    exact ⟨hc, by simpa [calls] using hcall⟩
  | output count handler => exact Option.ite_none_right_eq_some.mp h
  | endWriteFailed unreported =>
    obtain ⟨hguard, hc'⟩ := Option.ite_none_right_eq_some.mp h
    exact ⟨Bool.and_eq_true_iff.mp hguard, (Option.some.inj hc').symm⟩
  | beginWriteFailed count =>
    obtain ⟨hc, houtput⟩ := Option.ite_none_right_eq_some.mp h
    obtain ⟨d, hd, hclose⟩ := Option.bind_eq_some_iff.mp houtput
    obtain ⟨hpending, hc'⟩ := Option.ite_none_right_eq_some.mp hclose
    exact ⟨hc, d, hd, hpending, (Option.some.inj hc').symm⟩
  | input bytes ending =>
    obtain ⟨hguard, hc'⟩ := Option.ite_none_right_eq_some.mp h
    exact ⟨Bool.and_eq_true_iff.mp hguard, (Option.some.inj hc').symm⟩
  | endReadFailed unreported =>
    obtain ⟨hguard, hc'⟩ := Option.ite_none_right_eq_some.mp h
    exact ⟨Bool.and_eq_true_iff.mp hguard, (Option.some.inj hc').symm⟩
  | close unreported => exact (Option.some.inj h).symm
  | connect unreported => exact (Option.some.inj h).symm

/-- The input side leaves the output side alone. -/
structure SameOutput (c c' : Client) : Prop where
  connected : c'.connected = c.connected
  pending : c'.pending = c.pending
  outputBuffer : c'.outputBuffer = c.outputBuffer
  outputBufferNext : c'.outputBufferNext = c.outputBufferNext
  autoSync : c'.autoSync = c.autoSync
  accepted : c'.accepted = c.accepted
  messagesSent : c'.messagesSent = c.messagesSent
  output : c'.exchange.output = c.exchange.output
  earlier : c'.earlier = c.earlier

theorem processInput_output (fuel : Nat) (c : Client) :
    SameOutput c (c.processInput fuel).1 := by
  induction fuel generalizing c with
  | zero => exact ⟨rfl, rfl, rfl, rfl, rfl, rfl, rfl, rfl, rfl⟩
  | succ fuel ih =>
    simp only [processInput]
    split
    next d m _ =>
      have h := ih ({ c with deserializer := d, dataMessage := m } : Client).dispatchMessage
      exact ⟨h.1, h.2, h.3, h.4, h.5, h.6, h.7, h.8, h.9⟩
    next => exact ⟨rfl, rfl, rfl, rfl, rfl, rfl, rfl, rfl, rfl⟩
    next => exact ⟨rfl, rfl, rfl, rfl, rfl, rfl, rfl, rfl, rfl⟩

/-- `onInput` leaves the output side alone unless the next read cannot be begun. -/
theorem onInput_output (c : Client) (input : Bytes) (ending : InputEnd) :
    ∃ d, SameOutput c d ∧ (c.onInput input ending = d ∨ ∃ unreported,
      ending = .failed unreported ∧ c.onInput input ending = d.inputError unreported) := by
  let d := c.deserializer.addData input input.length
  have h := processInput_output (d.inputData.length + 1) { c with
    reading := false
    deserializer := d
    exchange := { c.exchange with input := c.exchange.input ++ [input] } }
  unfold onInput
  dsimp only
  split
  next c1 e hc1 =>
    rw [hc1] at h
    exact ⟨c1, ⟨h.1, h.2, h.3, h.4, h.5, h.6, h.7, h.8, h.9⟩, .inl rfl⟩
  next c1 hc1 =>
    rw [hc1] at h
    cases ending with
    | more =>
      exact ⟨{ c1 with reading := true }, ⟨h.1, h.2, h.3, h.4, h.5, h.6, h.7, h.8, h.9⟩, .inl rfl⟩
    | eof => exact ⟨c1, ⟨h.1, h.2, h.3, h.4, h.5, h.6, h.7, h.8, h.9⟩, .inl rfl⟩
    | failed unreported =>
      exact ⟨c1, ⟨h.1, h.2, h.3, h.4, h.5, h.6, h.7, h.8, h.9⟩, .inr ⟨unreported, rfl, rfl⟩⟩

/-- Every accepted byte is written, pending or waiting behind the pending ones. -/
structure Buffered (c : Client) : Prop where
  whole : c.exchange.output ++ c.outputBuffer ++ c.outputBufferNext = frames c.accepted
  idle : c.pending = none → c.outputBuffer = [] ∧ c.outputBufferNext = []
  region : c.Region
  sync : c.autoSync = true → c.pending = none
  sent : ∀ e ∈ c.messagesSent, e.1 = frames e.2

theorem Buffered.of_sameOutput (h : c.Buffered) (hsame : SameOutput c c') : c'.Buffered := by
  obtain ⟨-, h1, h2, h3, h4, h5, h6, h7, -⟩ := hsame
  exact ⟨by rw [h7, h2, h3, h5]; exact h.whole, by rw [h1, h2, h3]; exact h.idle,
    by rw [Region, h1, h2]; exact h.region, by rw [h4, h1]; exact h.sync,
    by rw [h6]; exact h.sent⟩

theorem Buffered.doSendMessage {m : DataMessage} {counts : List Nat} (h : c.Buffered)
    (hstep : c.doSendMessage m counts = some c') : c'.Buffered := by
  have hwhole := h.whole
  rcases doSendMessage_cases hstep with ⟨hsync, rfl⟩ | ⟨hasync, hpending, rfl⟩ |
    ⟨hasync, hnone, rfl⟩
  · obtain ⟨hbuffer, hnext⟩ := h.idle (h.sync hsync)
    refine ⟨?_, fun _ => ⟨rfl, hnext⟩, ?_, h.sync, h.sent⟩
    · rw [hbuffer, hnext, List.append_nil, List.append_nil] at hwhole
      simp [hbuffer, hnext, hwhole]
    · intro region hregion
      rw [h.sync hsync] at hregion
      cases hregion
  · refine ⟨?_, fun hnone => ?_, h.region, h.sync, h.sent⟩
    · rw [frames_append, ← hwhole, ← List.append_assoc]
      simp
    · rw [hnone] at hpending
      cases hpending
  · obtain ⟨hbuffer, hnext⟩ := h.idle hnone
    refine ⟨?_, nofun, ?_, fun hsync => ?_, h.sent⟩
    · rw [hbuffer, hnext, List.append_nil, List.append_nil] at hwhole
      simp [hbuffer, hnext, hwhole]
    · intro region hregion
      exact (Option.some.inj hregion).symm
    · rw [hasync] at hsync
      cases hsync

theorem Buffered.flush {sw : Bool} {counts : List Nat} (h : c.Buffered)
    (hstep : { c with autoSync := sw }.flush counts = some c') : c'.Buffered := by
  obtain rfl := flush_eq (c := { c with autoSync := sw }) h.region hstep
  refine ⟨?_, fun _ => ⟨rfl, rfl⟩, ?_, fun _ => rfl, h.sent⟩
  · rw [List.append_nil, List.append_nil]
    exact h.whole
  · intro region hregion
    cases hregion

theorem Buffered.async (h : c.Buffered) : Buffered { c with autoSync := false } :=
  ⟨h.whole, h.idle, h.region, nofun, h.sent⟩

theorem Buffered.calls {l : List (ClientCall × List Nat)} (h : c.Buffered)
    (hstep : c.calls l = some c') : c'.Buffered :=
  calls_keep Buffered (fun _ _ _ _ _ h hstep => h.doSendMessage hstep)
    (fun _ _ _ _ h hstep => h.flush hstep) (fun _ h => h.async) h hstep

theorem Buffered.emptied (h : c.Buffered) (hnext : c.outputBufferNext = []) :
    Buffered { c with
      exchange := { c.exchange with output := c.exchange.output ++ c.outputBuffer }
      pending := none
      outputBuffer := []
      messagesSent := c.messagesSent ++
        [(c.exchange.output ++ c.outputBuffer, c.accepted)] } := by
  have hwhole := h.whole
  rw [hnext, List.append_nil] at hwhole
  refine ⟨?_, fun _ => ⟨rfl, hnext⟩, nofun, fun _ => rfl, ?_⟩
  · simp [hnext, hwhole]
  · intro e he
    rcases List.mem_append.mp he with he | he
    · exact h.sent e he
    · obtain rfl := List.mem_singleton.mp he
      exact hwhole

theorem Buffered.onOutput {count : Nat} {handler : List (ClientCall × List Nat)}
    (h : c.Buffered) (hstep : c.onOutput count handler = some c') : c'.Buffered := by
  have hwhole := h.whole
  obtain ⟨hpending, ⟨-, hnext, hcalls⟩ | rfl⟩ := onOutput_cases h.region hstep
  · exact (h.emptied hnext).calls hcalls
  · refine ⟨?_, nofun, ?_, fun hsync => ?_, h.sent⟩
    · rw [List.append_nil, ← List.append_assoc, List.append_assoc c.exchange.output,
        List.take_append_drop]
      exact hwhole
    · intro region hregion
      exact (Option.some.inj hregion).symm
    · rw [h.sync hsync] at hpending
      cases hpending

theorem Buffered.calls_accepted {P : DataMessage → Prop} {l : List (ClientCall × List Nat)}
    (h : c.Buffered) (hl : ∀ call ∈ l, ∀ m, call.1.message = some m → P m)
    (hstep : c.calls l = some c') :
    ∃ new, c'.accepted = c.accepted ++ new ∧ ∀ m ∈ new, P m := by
  have hkeep := calls_keep
    (fun d => d.Buffered ∧ ∃ new, d.accepted = c.accepted ++ new ∧ ∀ m ∈ new, P m)
    (fun d m counts d' hm ⟨hd, new, hnew, hall⟩ hstep => by
      obtain ⟨call, hcall, hm⟩ := hm
      refine ⟨hd.doSendMessage hstep, new ++ [m], ?_, fun k hk => ?_⟩
      · rcases doSendMessage_cases hstep with ⟨-, rfl⟩ | ⟨-, -, rfl⟩ | ⟨-, -, rfl⟩ <;>
          simp [hnew]
      · rcases List.mem_append.mp hk with hk | hk
        · exact hall k hk
        · obtain rfl := List.mem_singleton.mp hk
          exact hl call hcall k hm)
    (fun d sw counts d' ⟨hd, new, hnew, hall⟩ hstep => by
      have heq := flush_eq (c := { d with autoSync := sw }) hd.region hstep
      exact ⟨hd.flush hstep, new, by rw [heq]; exact hnew, hall⟩)
    (fun d ⟨hd, hnew⟩ => ⟨hd.async, hnew⟩) ⟨h, [], by simp, by simp⟩ hstep
  exact hkeep.2

theorem Buffered.onOutput_accepted {P : DataMessage → Prop} {count : Nat}
    {handler : List (ClientCall × List Nat)} (h : c.Buffered)
    (hl : ∀ call ∈ handler, ∀ m, call.1.message = some m → P m)
    (hstep : c.onOutput count handler = some c') :
    ∃ new, c'.accepted = c.accepted ++ new ∧ ∀ m ∈ new, P m := by
  obtain ⟨-, ⟨-, hnext, hcalls⟩ | rfl⟩ := onOutput_cases h.region hstep
  · exact (h.emptied hnext).calls_accepted hl hcalls
  · exact ⟨[], by simp, by simp⟩

/-- The events within one connection without an I/O error. -/
def isSound : ClientEvent → Bool
  | .call _ _ => true
  | .output _ _ => true
  | .input _ .more => true
  | .input _ .eof => true
  | _ => false

theorem Buffered.step {e : ClientEvent} (h : c.Buffered) (he : isSound e = true)
    (hstep : c.step e = some c') : c'.Buffered := by
  have hcases := step_cases hstep
  cases e with
  | call call counts => exact h.calls hcases.2
  | output count handler => exact h.onOutput hcases.2
  | input bytes ending =>
    obtain ⟨-, rfl⟩ := hcases
    obtain ⟨d, hsame, hd | ⟨unreported, rfl, -⟩⟩ := onInput_output c bytes ending
    · rw [hd]
      exact h.of_sameOutput hsame
    · cases he
  | endWriteFailed unreported => cases he
  | beginWriteFailed count => cases he
  | endReadFailed unreported => cases he
  | close unreported => cases he
  | connect unreported => cases he

/-- A client after its first `connect`, with or without a selector. -/
def afterConnect (autoSync : Bool) : Client where
  connected := true
  reading := true
  autoSync := autoSync

theorem buffered_afterConnect (autoSync : Bool) : (afterConnect autoSync).Buffered :=
  ⟨rfl, fun _ => ⟨rfl, rfl⟩, nofun, fun _ => rfl, nofun⟩

/-- On one connection no byte is lost, duplicated or reordered on its way through the two
output buffers, and `messagesSent` means what it says. -/
theorem output_conserved (autoSync : Bool) (es : List ClientEvent) (c : Client)
    (hsound : ∀ e ∈ es, isSound e = true)
    (hrun : Runs.run Client.step (afterConnect autoSync) es = some c) :
    c.exchange.output ++ c.outputBuffer ++ c.outputBufferNext = frames c.accepted ∧
      (c.pending = none → c.outputBuffer = [] ∧ c.outputBufferNext = []) ∧
      (∀ region, c.pending = some region → region = c.outputBuffer) ∧
      ∀ e ∈ c.messagesSent, e.1 = frames e.2 := by
  have h : c.Buffered := Runs.invariant_of_meets Buffered
    (P := fun _ e => isSound e = true)
    (fun _ _ _ he h hstep => h.step he hstep) (buffered_afterConnect autoSync)
    (Runs.meets_of_forall hsound) hrun
  exact ⟨h.whole, h.idle, h.region, h.sent⟩

/-- Two messages, the first cut by a partial write, and a third sent by a handler. -/
def threeMessages : List ClientEvent :=
  [.call (.sendMessage .greeting) [], .call (.sendMessage .greeting) [], .output 20 [],
    .output 66 [(.sendMessage .greeting, [])], .output 0 []]

theorem output_conserved_threeMessages :
    ∃ c, Runs.run Client.step (afterConnect false) threeMessages = some c ∧
      c.exchange.output ++ c.outputBuffer ++ c.outputBufferNext = frames c.accepted ∧
      (c.pending = none → c.outputBuffer = [] ∧ c.outputBufferNext = []) ∧
      (∀ region, c.pending = some region → region = c.outputBuffer) ∧
      ∀ e ∈ c.messagesSent, e.1 = frames e.2 := by
  have hrun : (Runs.run Client.step (afterConnect false) threeMessages).isSome := by
    decide +kernel
  obtain ⟨c, hc⟩ := Option.isSome_iff_exists.mp hrun
  exact ⟨c, hc, output_conserved false threeMessages c (by decide) hc⟩

end Client

end TntPub
