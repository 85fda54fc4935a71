import TntPub.ParserSafety
import TntPub.StreamDecoding

namespace TntPub

open Framing

section Loops

variable {σ : Type} (messageReceived message : DataMessage → Call σ Unit)

/-- One iteration of the loop of `advance` over its arguments `buffer` and `bufsize`. -/
def advanceRound (version1Flag : Bool) : Call ((Bytes × Nat) × σ) Bool :=
  fun ((buffer, bufsize), s) =>
    match processBuffer version1Flag messageReceived message buffer bufsize s with
    | .ok 0 s => .ok false ((buffer, bufsize), s)
    | .ok n s => .ok true ((buffer.drop n, bufsize - n), s)
    | .error e s => .error e ((buffer, bufsize), s)

/-- The result of that loop: what is left of the arguments, if no exception came. -/
def leftOver {ε : Type} :
    EStateM.Result ε ((Bytes × Nat) × σ) Unit → EStateM.Result ε σ (Bytes × Nat)
  | .ok _ (left, s) => .ok left s
  | .error e (_, s) => .error e s

/-- The result of a loop that counts its iterations. -/
def withCount {ε : Type} (count : Nat) : EStateM.Result ε σ Unit → EStateM.Result ε σ Nat
  | .ok _ s => .ok count s
  | .error e s => .error e s

/-- The calls of a callback, counted also when it throws. -/
def counted (call : DataMessage → Call σ Unit) (m : DataMessage) : Call (Nat × σ) Unit :=
  fun (count, s) =>
    match call m s with
    | .ok _ s => .ok () (count + 1, s)
    | .error e s => .error e (count + 1, s)

def uncounted (call : DataMessage → Call σ Unit) (m : DataMessage) : Call (Nat × σ) Unit :=
  fun (count, s) =>
    match call m s with
    | .ok _ s => .ok () (count, s)
    | .error e s => .error e (count, s)

def callCount {ε α : Type} : EStateM.Result ε (Nat × σ) α → Nat
  | .ok _ (count, _) => count
  | .error _ (count, _) => count

variable {messageReceived message} {version1Flag : Bool} {buffer : Bytes} {bufsize n : Nat}

/-- The parser waits, throws, or calls back once with a frame that lies in the buffer. -/
theorem processBuffer_cases (version1Flag : Bool) (buffer : Bytes) (bufsize : Nat) :
    (∀ (σ : Type) (messageReceived message : DataMessage → Call σ Unit) s,
        processBuffer version1Flag messageReceived message buffer bufsize s = .ok 0 s) ∨
      (∃ e, ∀ (σ : Type) (messageReceived message : DataMessage → Call σ Unit) s,
        processBuffer version1Flag messageReceived message buffer bufsize s =
          .error (.exception e) s) ∨
      ∃ m n, Header.sizeof ≤ n ∧ n ≤ bufsize ∧
        ∀ (σ : Type) (messageReceived message : DataMessage → Call σ Unit),
          processBuffer version1Flag messageReceived message buffer bufsize = (do
            messageReceived m
            message m
            pure n) := by
  cases hp : parseMessage version1Flag buffer bufsize with
  | incomplete =>
    apply Or.inl
    intro σ messageReceived message s
    simp only [processBuffer, hp, pure, EStateM.pure]
  | fail e =>
    apply Or.inr
    apply Or.inl
    refine ⟨e, fun σ messageReceived message s => ?_⟩
    simp only [processBuffer, hp]
    rfl
  | frame m n =>
    obtain ⟨hsize, hle⟩ := parseMessage_frame_bounds hp
    apply Or.inr
    apply Or.inr
    refine ⟨m, n, hsize, hle, fun σ messageReceived message => ?_⟩
    simp only [processBuffer, hp]

theorem advanceRound_cost {x y : (Bytes × Nat) × σ}
    (h : advanceRound messageReceived message version1Flag x = .ok true y) :
    y.1.2 + 40 ≤ x.1.2 := by
  obtain ⟨⟨buffer, bufsize⟩, s⟩ := x
  simp only [advanceRound] at h
  split at h
  next => cases h
  next hn hp =>
    obtain ⟨-, rfl⟩ := EStateM.Result.ok.inj h
    obtain ⟨hcost, hle⟩ := (Deserializer.processBuffer_bounds hp).resolve_left hn
    rw [Header.sizeof] at hcost
    dsimp only
    omega
  next => cases h

theorem processMessage_cost {x y : Deserializer × σ}
    (h : Deserializer.processMessage messageReceived message x = .ok true y) :
    y.1.inputData.length + 40 ≤ x.1.inputData.length := by
  obtain ⟨d, s⟩ := x
  simp only [Deserializer.processMessage] at h
  split at h
  next => cases h
  next hn hp =>
    obtain ⟨-, rfl⟩ := EStateM.Result.ok.inj h
    obtain ⟨hcost, hle⟩ := (Deserializer.processBuffer_bounds hp).resolve_left hn
    rw [Header.sizeof] at hcost
    have hmod : toUnsigned d.inputData.length ≤ d.inputData.length := Nat.mod_le _ _
    simp only [List.length_drop]
    omega
  next => cases h

/-- What is left of the buffer when the loop over it has ended. -/
theorem advanceBuffer_of_ends {x : (Bytes × Nat) × σ} {r} {fuel : Nat}
    (h : Loops.Ends (advanceRound messageReceived message version1Flag) x n r) (hfuel : n < fuel) :
    Deserializer.advanceBuffer messageReceived message version1Flag fuel x.1.1 x.1.2 x.2 =
      leftOver r := by
  induction h generalizing fuel with
  | @stop x y hx =>
    obtain ⟨⟨buffer, bufsize⟩, s⟩ := x
    obtain ⟨fuel, rfl⟩ := Nat.exists_eq_succ_of_ne_zero (by omega : fuel ≠ 0)
    simp only [advanceRound] at hx
    split at hx
    next hp =>
      obtain ⟨-, rfl⟩ := EStateM.Result.ok.inj hx
      rw [Deserializer.advanceBuffer, Call.bind_ok hp]
      rfl
    next => cases hx
    next => cases hx
  | @leave x e y hx =>
    obtain ⟨⟨buffer, bufsize⟩, s⟩ := x
    obtain ⟨fuel, rfl⟩ := Nat.exists_eq_succ_of_ne_zero (by omega : fuel ≠ 0)
    simp only [advanceRound] at hx
    split at hx
    next => cases hx
    next => cases hx
    next hp =>
      obtain ⟨rfl, rfl⟩ := EStateM.Result.error.inj hx
      rw [Deserializer.advanceBuffer, Call.bind_error hp]
      rfl
  | @again x y n r hx _ ih =>
    obtain ⟨⟨buffer, bufsize⟩, s⟩ := x
    obtain ⟨fuel, rfl⟩ := Nat.exists_eq_succ_of_ne_zero (by omega : fuel ≠ 0)
    simp only [advanceRound] at hx
    split at hx
    next => cases hx
    next hn hp =>
      obtain ⟨-, rfl⟩ := EStateM.Result.ok.inj hx
      rw [Deserializer.advanceBuffer, Call.bind_ok hp, if_neg hn]
      exact ih (by omega : n < fuel)
    next => cases hx

theorem processMessages_of_ends {x : Deserializer × σ} {r} {fuel : Nat}
    (h : Loops.Ends (Deserializer.processMessage messageReceived message) x n r)
    (hfuel : n < fuel) :
    Deserializer.processMessages messageReceived message fuel x = withCount n r := by
  induction h generalizing fuel with
  | stop hx =>
    obtain ⟨fuel, rfl⟩ := Nat.exists_eq_succ_of_ne_zero (by omega : fuel ≠ 0)
    rw [Deserializer.processMessages, Call.bind_ok hx]
    rfl
  | leave hx =>
    obtain ⟨fuel, rfl⟩ := Nat.exists_eq_succ_of_ne_zero (by omega : fuel ≠ 0)
    rw [Deserializer.processMessages, Call.bind_error hx]
    rfl
  | @again x y n r hx _ ih =>
    obtain ⟨fuel, rfl⟩ := Nat.exists_eq_succ_of_ne_zero (by omega : fuel ≠ 0)
    have hrest : Deserializer.processMessages messageReceived message fuel y = _ := ih (by omega)
    rw [Deserializer.processMessages, Call.bind_ok hx, if_pos rfl]
    cases r with
    | ok a z => rw [Call.bind_ok hrest]; rfl
    | error e z => rw [Call.bind_error hrest]; rfl

/-- The loop over the buffer ends, and the fuel of its definition is enough. -/
theorem advanceBuffer_ends (buffer : Bytes) (s : σ) :
    ∃ n r, Loops.Ends (advanceRound messageReceived message version1Flag)
        ((buffer, buffer.length), s) n r ∧ Header.sizeof * n ≤ buffer.length ∧
      Deserializer.advanceBuffer messageReceived message version1Flag (buffer.length + 1) buffer
          buffer.length s = leftOver r := by
  obtain ⟨n, r, hends, hle⟩ := Loops.ends_of_cost (fun x : (Bytes × Nat) × σ => x.1.2)
    (by omega : 0 < 40) (fun x y h => advanceRound_cost h) ((buffer, buffer.length), s)
  dsimp only at hle
  exact ⟨n, r, hends, hle, advanceBuffer_of_ends hends (by omega : n < buffer.length + 1)⟩

theorem processMessages_ends (d : Deserializer) (s : σ) :
    ∃ n r, Loops.Ends (Deserializer.processMessage messageReceived message) (d, s) n r ∧
      Header.sizeof * n ≤ d.inputData.length ∧
      Deserializer.processMessages messageReceived message (d.inputData.length + 1) (d, s) =
        withCount n r := by
  obtain ⟨n, r, hends, hle⟩ := Loops.ends_of_cost (fun x : Deserializer × σ => x.1.inputData.length)
    (by omega : 0 < 40) (fun x y h => processMessage_cost h) (d, s)
  dsimp only at hle
  exact ⟨n, r, hends, hle, processMessages_of_ends hends
    (by omega : n < d.inputData.length + 1)⟩

theorem deliver_counted (ms : List DataMessage) (count : Nat) (s : σ) :
    callCount (deliver (counted messageReceived) (uncounted message) ms (count, s)) ≤
      count + ms.length := by
  induction ms generalizing count s with
  | nil => exact le_rfl
  | cons m ms ih =>
    simp only [deliver, announce, bind, EStateM.bind, counted]
    rw [List.length_cons]
    cases messageReceived m s with
    | error e t => simp only [callCount]; omega
    | ok a t =>
      simp only [uncounted]
      cases message m t with
      | error e u => simp only [callCount]; omega
      | ok b u =>
        have hrest := ih (count + 1) u
        dsimp only
        omega

theorem receive_counted (d : Drained UInt8 DataMessage Exception) (count : Nat) (s : σ) :
    callCount (receive (counted messageReceived) (uncounted message) d (count, s)) ≤
      count + d.messages.length := by
  have hdeliver : callCount (deliver (counted messageReceived) (uncounted message) d.messages
    (count, s)) ≤ _ := deliver_counted d.messages count s
  simp only [receive, bind, EStateM.bind]
  cases hd : deliver (counted messageReceived) (uncounted message) d.messages (count, s) with
  | error e t => rw [hd] at hdeliver; exact hdeliver
  | ok a t =>
    rw [hd] at hdeliver
    cases d.error with
    | none => exact hdeliver
    | some e => exact hdeliver

/-- The calls a function of the deserializer has made, however it ended. -/
def deliveredCalls {α : Type} (r : EStateM.Result Interrupt (Deserializer × Nat × σ) α) : Nat :=
  callCount (outcome r)

theorem deliveredCalls_le {α : Type} {r : EStateM.Result Interrupt (Deserializer × Nat × σ) α}
    {d : Drained UInt8 DataMessage Exception} {f : Bytes → Deserializer} {s : σ}
    (h : outcome r = (receive (counted messageReceived) (uncounted message) d >>=
      fun rest => pure (f rest)) (0, s)) : deliveredCalls r ≤ d.messages.length := by
  have hreceive : callCount (receive (counted messageReceived) (uncounted message) d (0, s)) ≤
    0 + d.messages.length := receive_counted d 0 s
  rw [Nat.zero_add] at hreceive
  rw [deliveredCalls, h]
  simp only [bind, EStateM.bind]
  cases hd : receive (counted messageReceived) (uncounted message) d (0, s) with
  | error e t => rw [hd] at hreceive; exact hreceive
  | ok a t => rw [hd] at hreceive; exact hreceive

theorem takesAll_cost (d : Deserializer) (input : Bytes) :
    Header.sizeof * (d.takesAll input).messages.length ≤ d.inputData.length + input.length := by
  rw [← List.length_append]
  apply drainFuel_cost
  intro xs m n hf
  obtain ⟨hsize, hle⟩ := parseMessage_frame_bounds hf
  exact ⟨hsize, hle.trans (Nat.mod_le _ _)⟩

theorem drained_cost (d : Deserializer) (input : Bytes) :
    Header.sizeof * (d.drained input).messages.length ≤ d.inputData.length + input.length := by
  unfold Deserializer.drained
  split
  next h =>
    rw [List.isEmpty_iff.mp h, List.length_nil, Nat.zero_add]
    exact drainFuel_cost (fun _ _ _ hf => parseMessage_frame_bounds hf) _ input
  next =>
    split
    next => exact Nat.zero_le _
    next => exact takesAll_cost d input

theorem advance_calls (hsize : buffer.length < 2 ^ 32) (d : Deserializer) (s : σ) :
    Header.sizeof * deliveredCalls (Deserializer.advance (counted messageReceived)
        (uncounted message) buffer buffer.length (d, 0, s)) ≤
      d.inputData.length + buffer.length := by
  have hcalls : deliveredCalls (Deserializer.advance (counted messageReceived) (uncounted message)
      buffer buffer.length (d, 0, s)) ≤ (d.drained buffer).messages.length :=
    deliveredCalls_le (Deserializer.outcome_advance hsize)
  exact (Nat.mul_le_mul_left _ hcalls).trans (drained_cost d buffer)

theorem collect_calls (d : Deserializer) (s : σ) :
    Header.sizeof * deliveredCalls (Deserializer.collect (counted messageReceived)
        (uncounted message) buffer buffer.length (d, 0, s)) ≤
      d.inputData.length + buffer.length := by
  have hcalls : deliveredCalls (Deserializer.collect (counted messageReceived) (uncounted message)
      buffer buffer.length (d, 0, s)) ≤ (d.takesAll buffer).messages.length :=
    deliveredCalls_le (Deserializer.outcome_collect_takesAll d (0, s) buffer)
  exact (Nat.mul_le_mul_left _ hcalls).trans (takesAll_cost d buffer)

end Loops

/-- No access leaves the buffer and no computation wraps; the parser waits, throws or calls back
once and consumes a frame; and the loops around it end within the messages that fit. -/
theorem parser_safe (version1Flag : Bool) (buffer : Bytes) (hsize : buffer.length < 2 ^ 32) :
    checkedParseMessage buffer (UInt32.ofNat buffer.length) version1Flag =
        .ok (parseMessage version1Flag buffer buffer.length) ∧
      ((∀ (σ : Type) (messageReceived message : DataMessage → Call σ Unit) s,
          processBuffer version1Flag messageReceived message buffer buffer.length s = .ok 0 s) ∨
        (∃ e, ∀ (σ : Type) (messageReceived message : DataMessage → Call σ Unit) s,
          processBuffer version1Flag messageReceived message buffer buffer.length s =
            .error (.exception e) s) ∨
        ∃ m n, Header.sizeof ≤ n ∧ n ≤ buffer.length ∧
          ∀ (σ : Type) (messageReceived message : DataMessage → Call σ Unit),
            processBuffer version1Flag messageReceived message buffer buffer.length = (do
              messageReceived m
              message m
              pure n)) ∧
      ∀ (σ : Type) (messageReceived message : DataMessage → Call σ Unit) (d : Deserializer) (s : σ),
        (∃ n r, Loops.Ends (advanceRound messageReceived message version1Flag)
            ((buffer, buffer.length), s) n r ∧ Header.sizeof * n ≤ buffer.length ∧
          Deserializer.advanceBuffer messageReceived message version1Flag (buffer.length + 1)
            buffer buffer.length s = leftOver r) ∧
        (∃ n r, Loops.Ends (Deserializer.processMessage messageReceived message) (d, s) n r ∧
          Header.sizeof * n ≤ d.inputData.length ∧
          Deserializer.processMessages messageReceived message (d.inputData.length + 1) (d, s) =
            withCount n r) ∧
        Header.sizeof * deliveredCalls (Deserializer.advance (counted messageReceived)
            (uncounted message) buffer buffer.length (d, 0, s)) ≤
          d.inputData.length + buffer.length ∧
        Header.sizeof * deliveredCalls (Deserializer.collect (counted messageReceived)
            (uncounted message) buffer buffer.length (d, 0, s)) ≤
          d.inputData.length + buffer.length := by
  refine ⟨?_, processBuffer_cases version1Flag buffer buffer.length, ?_⟩
  · have hbufsize : (UInt32.ofNat buffer.length).toNat = buffer.length :=
      UInt32.toNat_ofNat_of_lt' hsize
    rw [checkedParseMessage_ok, hbufsize]
  · intro σ messageReceived message d s
    exact ⟨advanceBuffer_ends buffer s, processMessages_ends d s, advance_calls hsize d s,
      collect_calls d s⟩

/-- A frame and 43 bytes that are none, with a callback that refuses every message. -/
theorem parser_safe_greeting :
    Header.sizeof * deliveredCalls (Deserializer.advance
        (counted fun _ => (throw (.exception .failedToCreate) : Call Unit Unit))
        (uncounted noSlots) (DataMessage.greeting.frame ++ List.replicate 43 0xff)
        (DataMessage.greeting.frame ++ List.replicate 43 0xff).length ({}, 0, ())) ≤
      ({} : Deserializer).inputData.length +
        (DataMessage.greeting.frame ++ List.replicate 43 0xff).length :=
  ((parser_safe false (DataMessage.greeting.frame ++ List.replicate 43 0xff)
    (by decide +kernel)).2.2 Unit _ noSlots {} ()).2.2.1

end TntPub
