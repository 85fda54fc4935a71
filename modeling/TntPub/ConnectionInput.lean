import TntPub.ClientOutput

namespace TntPub

open Framing

/-- The messages a new deserializer delivers from chunks of input, as the client feeds them. -/
def delivered (chunks : List Bytes) : List DataMessage :=
  match Deserializer.collectChunks record noSlots chunks ({}, []) with
  | .ok _ (_, log) => log
  | .error _ (_, log) => log

section Feeding

variable {d : Deserializer} {log : List DataMessage}

theorem receive_record_error {e : Exception} {drained : Drained UInt8 DataMessage Exception}
    (herr : drained.error = some e) :
    receive record noSlots drained log = .error (.exception e) (log ++ drained.messages) := by
  rw [receive, Call.bind_ok (deliver_record drained.messages log), herr]
  rfl

theorem collect_ok (log : List DataMessage) {input : Bytes}
    (herr : (d.takesAll input).error = none) :
    ∃ count, Deserializer.collect record noSlots input input.length (d, log) =
      .ok count ({ d with inputData := (d.takesAll input).rest },
        log ++ (d.takesAll input).messages) := by
  have h : outcome (Deserializer.collect record noSlots input input.length (d, log)) = _ :=
    Deserializer.outcome_collect_takesAll d log input
  rw [Call.bind_ok (receive_record herr log)] at h
  exact Deserializer.outcome_eq_ok h

theorem collect_error (log : List DataMessage) {e : Exception} {input : Bytes}
    (herr : (d.takesAll input).error = some e) :
    ∃ d', Deserializer.collect record noSlots input input.length (d, log) =
      .error (.exception e) (d', log ++ (d.takesAll input).messages) := by
  have h : outcome (Deserializer.collect record noSlots input input.length (d, log)) = _ :=
    Deserializer.outcome_collect_takesAll d log input
  rw [Call.bind_error (receive_record_error herr)] at h
  exact Deserializer.outcome_eq_error h

theorem collectChunks_concat {chunks : List Bytes} (input : Bytes)
    {s t : Deserializer × List DataMessage}
    (h : Deserializer.collectChunks record noSlots chunks s = .ok () t) :
    Deserializer.collectChunks record noSlots (chunks ++ [input]) s =
      (Deserializer.collect record noSlots input input.length >>= fun _ => pure ()) t := by
  induction chunks generalizing s with
  | nil =>
    obtain ⟨-, rfl⟩ := EStateM.Result.ok.inj h
    rfl
  | cons c cs ih =>
    obtain ⟨count, u, hc, hcs⟩ := Call.bind_eq_ok.mp h
    rw [List.cons_append, Deserializer.collectChunks, Call.bind_ok hc]
    exact ih hcs

theorem delivered_error {chunks : List Bytes} {input : Bytes} {e : Exception}
    (h : Deserializer.collectChunks record noSlots chunks ({}, []) = .ok () (d, log))
    (herr : (d.takesAll input).error = some e) :
    delivered (chunks ++ [input]) = log ++ (d.takesAll input).messages := by
  obtain ⟨d', hd'⟩ := collect_error log herr
  rw [delivered, collectChunks_concat input h, Call.bind_error hd']

theorem delivered_ok {chunks : List Bytes} {input : Bytes}
    (h : Deserializer.collectChunks record noSlots chunks ({}, []) = .ok () (d, log))
    (herr : (d.takesAll input).error = none) :
    Deserializer.collectChunks record noSlots (chunks ++ [input]) ({}, []) =
        .ok () ({ d with inputData := (d.takesAll input).rest },
          log ++ (d.takesAll input).messages) ∧
      delivered (chunks ++ [input]) = log ++ (d.takesAll input).messages := by
  obtain ⟨count, hd'⟩ := collect_ok log herr
  have hfeed := collectChunks_concat input h
  rw [Call.bind_ok hd'] at hfeed
  exact ⟨hfeed, by rw [delivered, hfeed]; rfl⟩

end Feeding

namespace Client

variable {c c' : Client}

theorem processInput_eq (fuel : Nat) (c : Client) :
    ∃ last, c.processInput fuel =
      ({ c with
        deserializer := { c.deserializer with
          inputData := (drainFuel (frontUnsigned c.deserializer.version1Flag) fuel
            c.deserializer.inputData).rest }
        dataMessage := last
        exchange := { c.exchange with
          dispatched := c.exchange.dispatched ++
            (drainFuel (frontUnsigned c.deserializer.version1Flag) fuel
              c.deserializer.inputData).messages } },
        (drainFuel (frontUnsigned c.deserializer.version1Flag) fuel
          c.deserializer.inputData).error.map .exception) := by
  induction fuel generalizing c with
  | zero => exact ⟨c.dataMessage, by simp [processInput, drainFuel]⟩
  | succ fuel ih =>
    cases hf : frontUnsigned c.deserializer.version1Flag c.deserializer.inputData with
    | incomplete =>
      refine ⟨c.dataMessage, ?_⟩
      simp only [processInput, Deserializer.processMessage_incomplete hf, drainFuel, hf,
        List.append_nil, Option.map_none]
    | fail e =>
      refine ⟨c.dataMessage, ?_⟩
      simp only [processInput, Deserializer.processMessage_fail hf, drainFuel, hf,
        List.append_nil, Option.map_some]
    | frame m n =>
      have hstep : Deserializer.processMessage (fun m => set m) noSlots
          (c.deserializer, c.dataMessage) = _ := Deserializer.processMessage_frame hf
      have hset : announce (fun m => set m) noSlots m c.dataMessage = .ok () m := rfl
      rw [hset] at hstep
      obtain ⟨last, hlast⟩ := ih ({ c with
        deserializer := { c.deserializer with
          inputData := c.deserializer.inputData.drop n }
        dataMessage := m } : Client).dispatchMessage
      refine ⟨last, ?_⟩
      simp only [processInput, hstep, drainFuel, hf]
      rw [hlast]
      simp [dispatchMessage, Drained.prepend]

/-- The client when the messages in its input are dispatched and no next read is begun. -/
def afterInput (c : Client) (input : Bytes) (last : DataMessage) : Client :=
  { c with
    reading := false
    deserializer := { c.deserializer with inputData := (c.deserializer.takesAll input).rest }
    dataMessage := last
    exchange := { c.exchange with
      input := c.exchange.input ++ [input]
      dispatched := c.exchange.dispatched ++ (c.deserializer.takesAll input).messages } }

theorem onInput_eq (c : Client) (input : Bytes) (ending : InputEnd) :
    ∃ last, c.onInput input ending =
      match (c.deserializer.takesAll input).error, ending with
      | some _, _ => c.afterInput input last
      | none, .more => { c.afterInput input last with reading := true }
      | none, .eof => c.afterInput input last
      | none, .failed unreported => (c.afterInput input last).inputError unreported := by
  have htakes : drainFuel (frontUnsigned c.deserializer.version1Flag)
      ((c.deserializer.inputData ++ input).length + 1) (c.deserializer.inputData ++ input) =
      c.deserializer.takesAll input := rfl
  obtain ⟨last, hlast⟩ := processInput_eq ((c.deserializer.inputData ++ input).length + 1) { c with
    reading := false
    deserializer := { c.deserializer with inputData := c.deserializer.inputData ++ input }
    exchange := { c.exchange with input := c.exchange.input ++ [input] } }
  simp only [htakes] at hlast
  refine ⟨last, ?_⟩
  simp only [onInput, Deserializer.addData_all, hlast]
  cases (c.deserializer.takesAll input).error with
  | some e => rfl
  | none => cases ending <;> rfl

/-- The output side leaves the input side alone. -/
structure SameInput (c c' : Client) : Prop where
  connected : c'.connected = c.connected
  reading : c'.reading = c.reading
  deserializer : c'.deserializer = c.deserializer
  input : c'.exchange.input = c.exchange.input
  dispatched : c'.exchange.dispatched = c.exchange.dispatched
  earlier : c'.earlier = c.earlier

theorem SameInput.refl (c : Client) : SameInput c c := ⟨rfl, rfl, rfl, rfl, rfl, rfl⟩

theorem SameInput.trans {c'' : Client} (h : SameInput c c') (h' : SameInput c' c'') :
    SameInput c c'' :=
  ⟨h'.connected.trans h.connected, h'.reading.trans h.reading,
    h'.deserializer.trans h.deserializer, h'.input.trans h.input,
    h'.dispatched.trans h.dispatched, h'.earlier.trans h.earlier⟩

theorem endWrite_input {count : Nat} (h : c.endWrite count = some c') : SameInput c c' := by
  obtain ⟨region, -, -, rfl⟩ := endWrite_eq h
  exact ⟨rfl, rfl, rfl, rfl, rfl, rfl⟩

theorem doSendMessage_input {m : DataMessage} {counts : List Nat}
    (h : c.doSendMessage m counts = some c') : SameInput c c' := by
  rcases doSendMessage_cases h with ⟨-, rfl⟩ | ⟨-, -, rfl⟩ | ⟨-, -, rfl⟩
  · exact ⟨rfl, rfl, rfl, rfl, rfl, rfl⟩
  · exact ⟨rfl, rfl, rfl, rfl, rfl, rfl⟩
  · exact ⟨rfl, rfl, rfl, rfl, rfl, rfl⟩

theorem finishWrite_input {counts left : List Nat} (h : c.finishWrite counts = some (c', left)) :
    SameInput c c' := by
  cases counts with
  | nil =>
    simp only [finishWrite] at h
    split at h
    next => cases h
    next =>
      obtain ⟨rfl, -⟩ := Prod.mk.inj (Option.some.inj h)
      exact .refl c
  | cons count counts =>
    simp only [finishWrite] at h
    split at h
    next =>
      obtain ⟨d, hd, hpair⟩ := Option.map_eq_some_iff.mp h
      obtain ⟨rfl, -⟩ := Prod.mk.inj hpair
      exact endWrite_input hd
    next =>
      obtain ⟨rfl, -⟩ := Prod.mk.inj (Option.some.inj h)
      exact .refl c

theorem flush_input {counts : List Nat} (h : c.flush counts = some c') : SameInput c c' := by
  obtain ⟨⟨d, counts1⟩, hd, h⟩ := Option.bind_eq_some_iff.mp h
  obtain ⟨⟨written, counts2⟩, -, h⟩ := Option.bind_eq_some_iff.mp h
  obtain ⟨⟨writtenNext, counts3⟩, -, h⟩ := Option.bind_eq_some_iff.mp h
  obtain rfl := Option.some.inj h
  have hsame := finishWrite_input hd
  exact ⟨hsame.1, hsame.2, hsame.3, hsame.4, hsame.5, hsame.6⟩

theorem calls_input {l : List (ClientCall × List Nat)} (h : c.calls l = some c') :
    SameInput c c' :=
  calls_keep (SameInput c) (fun _ _ _ _ _ h hstep => h.trans (doSendMessage_input hstep))
    (fun d sw _ _ h hstep =>
      have hswitched : SameInput c { d with autoSync := sw } := ⟨h.1, h.2, h.3, h.4, h.5, h.6⟩
      hswitched.trans (flush_input hstep))
    (fun _ h => ⟨h.1, h.2, h.3, h.4, h.5, h.6⟩) (.refl c) h

theorem onOutput_input {count : Nat} {handler : List (ClientCall × List Nat)}
    (h : c.onOutput count handler = some c') : SameInput c c' := by
  obtain ⟨d, hd, h⟩ := Option.bind_eq_some_iff.mp h
  have hsame := endWrite_input hd
  split at h
  next =>
    split at h
    next =>
      have hcalls := calls_input h
      exact hsame.trans ⟨hcalls.1, hcalls.2, hcalls.3, hcalls.4, hcalls.5, hcalls.6⟩
    next =>
      obtain rfl := Option.some.inj h
      exact ⟨hsame.1, hsame.2, hsame.3, hsame.4, hsame.5, hsame.6⟩
  next =>
    split at h
    next =>
      obtain rfl := Option.some.inj h
      exact ⟨hsame.1, hsame.2, hsame.3, hsame.4, hsame.5, hsame.6⟩
    next =>
      obtain rfl := Option.some.inj h
      exact ⟨hsame.1, hsame.2, hsame.3, hsame.4, hsame.5, hsame.6⟩

/-- What was dispatched on each connection is what a new deserializer delivers, and as long
as the client reads its deserializer is as a new one would be. -/
structure FreshInput (c : Client) : Prop where
  ongoing : c.reading = true →
    Deserializer.collectChunks record noSlots c.exchange.input ({}, []) =
      .ok () (c.deserializer, c.exchange.dispatched)
  dispatched : c.exchange.dispatched = delivered c.exchange.input
  version1Flag : c.deserializer.version1Flag = false
  earlier : ∀ x ∈ c.earlier, x.dispatched = delivered x.input

theorem FreshInput.of_sameInput (h : c.FreshInput) (hsame : SameInput c c') :
    c'.FreshInput := by
  obtain ⟨-, h1, h2, h3, h4, h5⟩ := hsame
  exact ⟨by rw [h1, h2, h3, h4]; exact h.ongoing, by rw [h3, h4]; exact h.dispatched,
    by rw [h2]; exact h.version1Flag, by rw [h5]; exact h.earlier⟩

theorem FreshInput.closePeer (h : c.FreshInput) (unreported : Nat) :
    (c.closePeer unreported).FreshInput :=
  ⟨nofun, h.dispatched, h.version1Flag, h.earlier⟩

theorem FreshInput.inputError (h : c.FreshInput) (unreported : Nat) :
    (c.inputError unreported).FreshInput :=
  ⟨nofun, h.dispatched, h.version1Flag, h.earlier⟩

theorem FreshInput.onInput (h : c.FreshInput) (hreading : c.reading = true) (input : Bytes)
    (ending : InputEnd) : (c.onInput input ending).FreshInput := by
  obtain ⟨last, hlast⟩ := onInput_eq c input ending
  rw [hlast]
  cases herr : (c.deserializer.takesAll input).error with
  | some e =>
    have hdelivered := delivered_error (h.ongoing hreading) herr
    exact ⟨nofun, hdelivered.symm, h.version1Flag, h.earlier⟩
  | none =>
    obtain ⟨hfeed, hdelivered⟩ := delivered_ok (h.ongoing hreading) herr
    cases ending with
    | more => exact ⟨fun _ => hfeed, hdelivered.symm, h.version1Flag, h.earlier⟩
    | eof => exact ⟨nofun, hdelivered.symm, h.version1Flag, h.earlier⟩
    | failed unreported => exact ⟨nofun, hdelivered.symm, h.version1Flag, h.earlier⟩

def LeavesEmpty (c : Client) (e : ClientEvent) : Prop :=
  e.isConnect = true → c.deserializer.inputData = []

instance (c : Client) (e : ClientEvent) : Decidable (LeavesEmpty c e) :=
  inferInstanceAs (Decidable (_ → _))

theorem FreshInput.connect (h : c.FreshInput) (hempty : c.deserializer.inputData = [])
    (unreported : Nat) : (c.connect unreported).FreshInput := by
  have hd : c.deserializer = {} := by
    have hversion := h.version1Flag
    cases hc : c.deserializer with
    | mk inputData version1Flag =>
      rw [hc] at hempty hversion
      cases hempty
      cases hversion
      rfl
  refine ⟨fun _ => ?_, rfl, h.version1Flag, fun x hx => ?_⟩
  · change EStateM.Result.ok () (({} : Deserializer), _) = .ok () (c.deserializer, _)
    rw [hd]
    rfl
  · rcases List.mem_append.mp hx with hx | hx
    · exact h.earlier x hx
    · obtain rfl := List.mem_singleton.mp hx
      exact h.dispatched

theorem FreshInput.step {e : ClientEvent} (hempty : LeavesEmpty c e) (h : c.FreshInput)
    (hstep : c.step e = some c') : c'.FreshInput := by
  have hcases := step_cases hstep
  cases e with
  | call call counts => exact h.of_sameInput (calls_input hcases.2)
  | output count handler => exact h.of_sameInput (onOutput_input hcases.2)
  | endWriteFailed unreported =>
    obtain ⟨-, rfl⟩ := hcases
    exact h.closePeer unreported
  | beginWriteFailed count =>
    obtain ⟨-, d, hd, -, rfl⟩ := hcases
    have hfresh := h.of_sameInput (onOutput_input hd)
    exact hfresh.closePeer 0
  | input bytes ending =>
    obtain ⟨⟨-, hreading⟩, rfl⟩ := hcases
    exact h.onInput hreading bytes ending
  | endReadFailed unreported =>
    obtain ⟨-, rfl⟩ := hcases
    exact h.inputError unreported
  | close unreported =>
    obtain rfl : c' = c.closePeer unreported := hcases
    exact h.closePeer unreported
  | connect unreported =>
    obtain rfl : c' = c.connect unreported := hcases
    exact h.connect (hempty rfl) unreported

theorem freshInput_new : ({} : Client).FreshInput := ⟨nofun, rfl, rfl, nofun⟩

/-- If no input is left over at any `connect`, the messages dispatched on each connection
are those of its own bytes. -/
theorem dispatched_fresh (es : List ClientEvent) (c : Client)
    (hempty : Runs.Meets Client.step LeavesEmpty {} es)
    (hrun : Runs.run Client.step {} es = some c) :
    ∀ x ∈ c.earlier ++ [c.exchange], x.dispatched = delivered x.input := by
  have h : c.FreshInput := Runs.invariant_of_meets FreshInput
    (fun _ _ _ hempty h hstep => h.step hempty hstep) freshInput_new hempty hrun
  intro x hx
  rcases List.mem_append.mp hx with hx | hx
  · exact h.earlier x hx
  · obtain rfl := List.mem_singleton.mp hx
    exact h.dispatched

/-- Two connections; of the frame sent on the first only `count` bytes arrive. -/
def twoInputs (count : Nat) : List ClientEvent :=
  [.connect 0, .input (DataMessage.greeting.frame.take count) .more, .close 0, .connect 0,
    .input DataMessage.greeting.frame .more]

theorem dispatched_fresh_whole :
    ∃ c, Runs.run Client.step {} (twoInputs 43) = some c ∧
      ∀ x ∈ c.earlier ++ [c.exchange], x.dispatched = delivered x.input := by
  have hrun : (Runs.run Client.step {} (twoInputs 43)).isSome := by decide +kernel
  obtain ⟨c, hc⟩ := Option.isSome_iff_exists.mp hrun
  exact ⟨c, hc, dispatched_fresh (twoInputs 43) c (by decide +kernel) hc⟩

/-- Ten bytes of a frame are left from the first connection, and the whole frame on the
second is not recognised. -/
theorem not_dispatched_fresh :
    ¬ ∀ es c, Runs.run Client.step {} es = some c →
      ∀ x ∈ c.earlier ++ [c.exchange], x.dispatched = delivered x.input := by
  intro h
  have hrun : ∃ c, Runs.run Client.step {} (twoInputs 10) = some c ∧
      c.exchange.dispatched ≠ delivered c.exchange.input := by
    decide +kernel
  obtain ⟨c, hc, hne⟩ := hrun
  exact hne (h _ c hc c.exchange (by simp))

end Client

end TntPub
