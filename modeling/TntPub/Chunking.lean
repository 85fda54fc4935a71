import TntPub.FrameCodec

namespace TntPub

open Framing

variable {σ : Type} (messageReceived message : DataMessage → Call σ Unit)

def announce (m : DataMessage) : Call σ Unit := do
  messageReceived m
  message m

def deliver : List DataMessage → Call σ Unit
  | [] => pure ()
  | m :: ms => do
    announce messageReceived message m
    deliver ms

/-- Deliver what a drained input holds; the result is what is left of it. -/
def receive (d : Drained UInt8 DataMessage Exception) : Call σ Bytes := do
  deliver messageReceived message d.messages
  match d.error with
  | none => pure d.rest
  | some e => throw (.exception e)

/-- The parser on the whole collected input, whose size is passed as an `unsigned`. -/
def frontUnsigned (version1Flag : Bool) (input : Bytes) : Front DataMessage Exception :=
  parseMessage version1Flag input (toUnsigned input.length)

/-- What a caller of the deserializer can tell from a call: the callbacks' state, and the
deserializer if no exception came. -/
def outcome {α : Type} :
    EStateM.Result Interrupt (Deserializer × σ) α → EStateM.Result Interrupt σ Deserializer
  | .ok _ (d, s) => .ok d s
  | .error e (_, s) => .error e s

variable {messageReceived message}

theorem deliver_append (ms ns : List DataMessage) (s : σ) :
    deliver messageReceived message (ms ++ ns) s =
      (deliver messageReceived message ms >>= fun _ => deliver messageReceived message ns) s := by
  induction ms generalizing s with
  | nil => rfl
  | cons m ms ih =>
    simp only [List.cons_append, deliver, bind, EStateM.bind]
    cases announce messageReceived message m s with
    | ok a t => exact ih t
    | error e t => rfl

theorem receive_prepend (ms : List DataMessage) (d : Drained UInt8 DataMessage Exception) (s : σ) :
    receive messageReceived message (d.prepend ms) s =
      (deliver messageReceived message ms >>= fun _ => receive messageReceived message d) s := by
  have h : deliver messageReceived message (ms ++ d.messages) s = _ :=
    deliver_append ms d.messages s
  simp only [bind, EStateM.bind] at h
  simp only [receive, Drained.prepend_messages, Drained.prepend_error, Drained.prepend_rest, bind,
    EStateM.bind, h]
  cases deliver messageReceived message ms s <;> rfl

namespace Deserializer

variable {d : Deserializer} {s : σ}

theorem addData_all (d : Deserializer) (buffer : Bytes) :
    d.addData buffer buffer.length = { d with inputData := d.inputData ++ buffer } := by
  rw [addData, List.take_length]

theorem front_of_empty (d : Deserializer) (h : d.inputData = []) :
    (framer d.version1Flag).front d.inputData = .incomplete := by
  rw [h]
  exact (framer d.version1Flag).front_nil

theorem processMessage_incomplete (h : frontUnsigned d.version1Flag d.inputData = .incomplete) :
    processMessage messageReceived message (d, s) = .ok false (d, s) := by
  simp only [frontUnsigned] at h
  simp only [processMessage, processBuffer, h, pure, EStateM.pure]

theorem processMessage_fail {e : Exception}
    (h : frontUnsigned d.version1Flag d.inputData = .fail e) :
    processMessage messageReceived message (d, s) = .error (.exception e) (d, s) := by
  simp only [frontUnsigned] at h
  simp only [processMessage, processBuffer, h]
  rfl

theorem processBuffer_frame {version1Flag : Bool} {buffer : Bytes} {bufsize n : Nat}
    {m : DataMessage} (h : parseMessage version1Flag buffer bufsize = .frame m n) :
    processBuffer version1Flag messageReceived message buffer bufsize s =
      match announce messageReceived message m s with
      | .ok _ t => .ok n t
      | .error e t => .error e t := by
  simp only [processBuffer, h, announce, bind, EStateM.bind]
  cases messageReceived m s with
  | ok a t => simp only []; cases message m t <;> rfl
  | error e t => rfl

/-- What is taken from a buffer is nothing, or a header at least and all there is at most. -/
theorem processBuffer_bounds {version1Flag : Bool} {buffer : Bytes} {bufsize n : Nat} {t : σ}
    (h : processBuffer version1Flag messageReceived message buffer bufsize s = .ok n t) :
    n = 0 ∨ Header.sizeof ≤ n ∧ n ≤ bufsize := by
  cases hp : parseMessage version1Flag buffer bufsize with
  | incomplete =>
    simp only [processBuffer, hp, pure, EStateM.pure] at h
    obtain ⟨rfl, -⟩ := EStateM.Result.ok.inj h
    exact .inl rfl
  | fail e => simp only [processBuffer, hp] at h; cases h
  | frame m k =>
    rw [processBuffer_frame hp] at h
    cases ha : announce messageReceived message m s with
    | error e u => rw [ha] at h; cases h
    | ok a u =>
      rw [ha] at h
      obtain ⟨rfl, -⟩ := EStateM.Result.ok.inj h
      exact .inr (parseMessage_frame_bounds hp)

theorem processMessage_frame {m : DataMessage} {n : Nat}
    (h : frontUnsigned d.version1Flag d.inputData = .frame m n) :
    processMessage messageReceived message (d, s) =
      match announce messageReceived message m s with
      | .ok _ t => .ok true ({ d with inputData := d.inputData.drop n }, t)
      | .error e t => .error e (d, t) := by
  have hpos := (parseMessage_frame_bounds h).1
  obtain ⟨k, rfl⟩ : ∃ k, n = k + 1 := ⟨n - 1, by rw [Header.sizeof] at hpos; omega⟩
  simp only [processMessage, processBuffer_frame h]
  cases announce messageReceived message m s <;> rfl

theorem outcome_processMessages_true {fuel : Nat} {t : Deserializer × σ}
    (h : processMessage messageReceived message (d, s) = .ok true t) :
    outcome (processMessages messageReceived message (fuel + 1) (d, s)) =
      outcome (processMessages messageReceived message fuel t) := by
  rw [processMessages, Call.bind_ok h, if_pos rfl]
  cases hrest : processMessages messageReceived message fuel t with
  | ok count u => rw [Call.bind_ok hrest]; rfl
  | error e u => rw [Call.bind_error hrest]

theorem outcome_processMessages (fuel : Nat) :
    outcome (processMessages messageReceived message fuel (d, s)) =
      (receive messageReceived message
        (drainFuel (frontUnsigned d.version1Flag) fuel d.inputData) >>=
          fun rest => pure { d with inputData := rest }) s := by
  induction fuel generalizing d s with
  | zero => rfl
  | succ fuel ih =>
    cases hf : frontUnsigned d.version1Flag d.inputData with
    | incomplete =>
      rw [processMessages, Call.bind_ok (processMessage_incomplete hf), drainFuel, hf]
      rfl
    | fail e =>
      rw [processMessages, Call.bind_error (processMessage_fail hf), drainFuel, hf]
      rfl
    | frame m n =>
      have hstep : processMessage messageReceived message (d, s) = _ := processMessage_frame hf
      simp only [drainFuel, hf, bind, EStateM.bind, receive_prepend, deliver]
      cases ha : announce messageReceived message m s with
      | error e t =>
        rw [ha] at hstep
        rw [processMessages, Call.bind_error hstep]
        rfl
      | ok a t =>
        rw [ha] at hstep
        rw [outcome_processMessages_true hstep, ih]
        rfl

theorem advanceBuffer_eq {version1Flag : Bool} (fuel : Nat) {buffer : Bytes}
    (hfuel : buffer.length < fuel) :
    advanceBuffer messageReceived message version1Flag fuel buffer buffer.length s =
      (receive messageReceived message ((framer version1Flag).drain buffer) >>=
        fun rest => pure (rest, rest.length)) s := by
  induction fuel generalizing buffer s with
  | zero => omega
  | succ fuel ih =>
    cases hf : (framer version1Flag).front buffer with
    | incomplete =>
      rw [Framer.drain_of_incomplete hf]
      rw [framer_front] at hf
      have hzero : processBuffer version1Flag messageReceived message buffer buffer.length s =
          .ok 0 s := by
        simp only [processBuffer, hf, pure, EStateM.pure]
      rw [advanceBuffer, Call.bind_ok hzero]
      rfl
    | fail e =>
      rw [Framer.drain_of_fail hf]
      rw [framer_front] at hf
      have hthrow : processBuffer version1Flag messageReceived message buffer buffer.length s =
          .error (.exception e) s := by
        simp only [processBuffer, hf]
        rfl
      rw [advanceBuffer, Call.bind_error hthrow]
      rfl
    | frame m n =>
      have hpos := (framer version1Flag).frame_pos hf
      have hle := (framer version1Flag).frame_le hf
      have hlen : (buffer.drop n).length = buffer.length - n := List.length_drop
      rw [Framer.drain_of_frame hf]
      rw [framer_front] at hf
      have hstep : processBuffer version1Flag messageReceived message buffer buffer.length s = _ :=
        processBuffer_frame hf
      simp only [bind, EStateM.bind, receive_prepend, deliver]
      cases ha : announce messageReceived message m s with
      | error e t =>
        rw [ha] at hstep
        rw [advanceBuffer, Call.bind_error hstep]
      | ok a t =>
        rw [ha] at hstep
        rw [advanceBuffer, Call.bind_ok hstep, if_neg (by omega), ← hlen, ih (by omega)]
        rfl

theorem advanceBuffer_local {version1Flag : Bool} (fuel : Nat) {buffer : Bytes} (more : Bytes) :
    advanceBuffer messageReceived message version1Flag fuel (buffer ++ more) buffer.length s =
      (advanceBuffer messageReceived message version1Flag fuel buffer buffer.length >>=
        fun left => pure (left.1 ++ more, left.2)) s := by
  induction fuel generalizing buffer s with
  | zero => rfl
  | succ fuel ih =>
    have hlocal :
        processBuffer version1Flag messageReceived message (buffer ++ more) buffer.length =
          processBuffer version1Flag messageReceived message buffer buffer.length := by
      simp only [processBuffer, parseMessage_local]
    simp only [advanceBuffer, hlocal, bind, EStateM.bind]
    cases hp : processBuffer version1Flag messageReceived message buffer buffer.length s with
    | error e t => rfl
    | ok n t =>
      dsimp only
      split
      next => rfl
      next hn =>
        obtain ⟨-, hle⟩ := (processBuffer_bounds hp).resolve_left hn
        have hlen : buffer.length - n = (buffer.drop n).length := List.length_drop.symm
        rw [List.drop_append_of_le_length hle, hlen]
        exact ih

/-- `advance` reads nothing behind the size it is given. -/
theorem advance_local {buffer : Bytes} (more : Bytes) :
    advance messageReceived message (buffer ++ more) buffer.length (d, s) =
      advance messageReceived message buffer buffer.length (d, s) := by
  have hinput : ∀ (rest : Bytes) t,
      advanceInput messageReceived message (rest ++ more) rest.length (d, t) =
        advanceInput messageReceived message rest rest.length (d, t) := by
    intro rest t
    simp only [advanceInput, addData, List.take_left, List.take_length]
  simp only [advance, hinput]
  split
  next =>
    have hbuffer : advanceBuffer messageReceived message d.version1Flag (buffer.length + 1) buffer
        buffer.length s = _ := advanceBuffer_eq _ (Nat.lt_succ_self buffer.length)
    rw [advanceBuffer_local]
    simp only [bind, EStateM.bind] at hbuffer ⊢
    rw [hbuffer]
    cases receive messageReceived message ((framer d.version1Flag).drain buffer) s with
    | error e t => rfl
    | ok rest t => exact hinput rest t
  next => rfl

/-- The messages `advance` takes from a buffer, and what it leaves collected. -/
def drained (d : Deserializer) (buffer : Bytes) : Drained UInt8 DataMessage Exception :=
  if d.inputData.isEmpty then (framer d.version1Flag).drain buffer
  else if buffer.isEmpty then ⟨[], d.inputData, none⟩
  else
    drainFuel (frontUnsigned d.version1Flag) ((d.inputData ++ buffer).length + 1)
      (d.inputData ++ buffer)

theorem drainFuel_frontUnsigned {version1Flag : Bool} {input : Bytes}
    (h : input.length < 2 ^ 32) :
    drainFuel (frontUnsigned version1Flag) (input.length + 1) input =
      (framer version1Flag).drain input := by
  refine drainFuel_congr fun n => ?_
  have hle : (input.drop n).length ≤ input.length := by simp only [List.length_drop]; omega
  rw [frontUnsigned, framer_front, toUnsigned, Nat.mod_eq_of_lt (by omega)]

theorem drained_eq_drain {buffer : Bytes}
    (hwait : (framer d.version1Flag).front d.inputData = .incomplete)
    (hsize : (d.inputData ++ buffer).length < 2 ^ 32) :
    d.drained buffer = (framer d.version1Flag).drain (d.inputData ++ buffer) := by
  unfold drained
  split
  next h => rw [List.isEmpty_iff.mp h, List.nil_append]
  next h =>
    split
    next hb =>
      rw [List.isEmpty_iff.mp hb, List.append_nil, Framer.drain_of_incomplete hwait]
    next hb => exact drainFuel_frontUnsigned hsize

theorem outcome_advanceInput {buffer : Bytes} (hne : buffer ≠ []) :
    outcome (advanceInput messageReceived message buffer buffer.length (d, s)) =
      (receive messageReceived message
        (drainFuel (frontUnsigned d.version1Flag) ((d.inputData ++ buffer).length + 1)
          (d.inputData ++ buffer)) >>= fun rest => pure { d with inputData := rest }) s := by
  have hpos : buffer.length > 0 := List.length_pos_iff.mpr hne
  simp only [advanceInput, hpos, if_true, addData_all]
  exact outcome_processMessages _

/-- What the loop over the given buffer leaves is no whole frame, and is only collected. -/
theorem advanceInput_incomplete {input : Bytes} (hnil : d.inputData = [])
    (hwait : (framer d.version1Flag).front input = .incomplete)
    (hsize : input.length < 2 ^ 32) :
    advanceInput messageReceived message input input.length (d, s) =
      .ok 0 ({ d with inputData := input }, s) := by
  have hfront : frontUnsigned d.version1Flag input = .incomplete := by
    rw [frontUnsigned, toUnsigned, Nat.mod_eq_of_lt hsize]
    exact hwait
  simp only [advanceInput, addData_all, hnil, List.nil_append]
  split
  next =>
    rw [processMessages, Call.bind_ok (processMessage_incomplete hfront)]
    rfl
  next hzero =>
    have hinput : input = [] := List.eq_nil_of_length_eq_zero (by omega)
    rw [hinput, ← hnil]

/-- With nothing collected the given buffer is worked on alone: nothing is counted, and an
exception leaves nothing collected. -/
theorem advance_of_empty {buffer : Bytes} (hnil : d.inputData = [])
    (hsize : buffer.length < 2 ^ 32) :
    advance messageReceived message buffer buffer.length (d, s) =
      match receive messageReceived message ((framer d.version1Flag).drain buffer) s with
      | .ok rest t => .ok 0 ({ d with inputData := rest }, t)
      | .error e t => .error e (d, t) := by
  have hbuffer : advanceBuffer messageReceived message d.version1Flag (buffer.length + 1) buffer
    buffer.length s = _ := advanceBuffer_eq _ (Nat.lt_succ_self buffer.length)
  simp only [advance, hnil, List.isEmpty_nil, if_true]
  cases hr : receive messageReceived message ((framer d.version1Flag).drain buffer) s with
  | error e t =>
    rw [Call.bind_error hr] at hbuffer
    rw [hbuffer]
  | ok rest t =>
    rw [Call.bind_ok hr] at hbuffer
    rw [hbuffer]
    obtain ⟨_, u, -, hrest⟩ := Call.bind_eq_ok.mp hr
    cases herr : ((framer d.version1Flag).drain buffer).error with
    | some e =>
      rw [herr] at hrest
      cases hrest
    | none =>
      rw [herr] at hrest
      cases hrest
      have hsuffix := (Framer.drain_rest_suffix (F := framer d.version1Flag) buffer).length_le
      exact advanceInput_incomplete hnil (Framer.front_drain_rest_of_ok herr) (by omega)

/-- `advance` delivers what the collected input and the new bytes hold, on either path. -/
theorem outcome_advance {buffer : Bytes} (hbuffer : buffer.length < 2 ^ 32) :
    outcome (advance messageReceived message buffer buffer.length (d, s)) =
      (receive messageReceived message (d.drained buffer) >>=
        fun rest => pure { d with inputData := rest }) s := by
  cases hempty : d.inputData.isEmpty with
  | true =>
    rw [advance_of_empty (List.isEmpty_iff.mp hempty) hbuffer, drained, if_pos hempty]
    simp only [bind, EStateM.bind]
    cases receive messageReceived message ((framer d.version1Flag).drain buffer) s <;> rfl
  | false =>
    simp only [advance, drained, hempty, Bool.false_eq_true, if_false]
    split
    next hb =>
      simp only [List.isEmpty_iff.mp hb, List.length_nil, advanceInput, gt_iff_lt, lt_irrefl,
        if_false]
      rfl
    next hb => exact outcome_advanceInput (by simpa using hb)

variable (messageReceived message)

def advanceChunks : List Bytes → Call (Deserializer × σ) Unit
  | [] => pure ()
  | c :: cs => do
    let _ ← advance messageReceived message c c.length
    advanceChunks cs

/-- `addData`, then `processMessage` until it returns false, as in `Client::onInput`. -/
def collect (buffer : Bytes) (bufsize : Nat) : Call (Deserializer × σ) Nat := fun (d, s) =>
  let d := d.addData buffer bufsize
  processMessages messageReceived message (d.inputData.length + 1) (d, s)

def collectChunks : List Bytes → Call (Deserializer × σ) Unit
  | [] => pure ()
  | c :: cs => do
    let _ ← collect messageReceived message c c.length
    collectChunks cs

variable {messageReceived message}

/-- At no time do the collected bytes reach the size an `unsigned` cannot hold. -/
def StaysBelow (version1Flag : Bool) : Bytes → List Bytes → Prop
  | _, [] => True
  | pending, c :: cs =>
    (pending ++ c).length < 2 ^ 32 ∧
      (((framer version1Flag).drain (pending ++ c)).error = none →
        StaysBelow version1Flag ((framer version1Flag).drain (pending ++ c)).rest cs)

theorem staysBelow_of_total {version1Flag : Bool} {pending : Bytes} {chunks : List Bytes}
    (h : (pending ++ chunks.flatten).length < 2 ^ 32) : StaysBelow version1Flag pending chunks := by
  induction chunks generalizing pending with
  | nil => trivial
  | cons c cs ih =>
    simp only [List.flatten_cons, List.length_append] at h
    refine ⟨by simp only [List.length_append]; omega, fun _ => ih ?_⟩
    have hsuffix :=
      (Framer.drain_rest_suffix (F := framer version1Flag) (pending ++ c)).length_le
    simp only [List.length_append] at hsuffix ⊢
    omega

theorem staysBelow_left {version1Flag : Bool} {pending : Bytes} {chunks more : List Bytes}
    (h : StaysBelow version1Flag pending (chunks ++ more)) :
    StaysBelow version1Flag pending chunks := by
  induction chunks generalizing pending with
  | nil => trivial
  | cons c cs ih => exact ⟨h.1, fun herr => ih (h.2 herr)⟩

theorem staysBelow_right {version1Flag : Bool} {pending : Bytes} {chunks more : List Bytes}
    (h : StaysBelow version1Flag pending (chunks ++ more))
    (hwait : (framer version1Flag).front pending = .incomplete)
    (herr : ((framer version1Flag).drain (pending ++ chunks.flatten)).error = none) :
    StaysBelow version1Flag ((framer version1Flag).drain (pending ++ chunks.flatten)).rest
      more := by
  induction chunks generalizing pending with
  | nil =>
    rw [List.flatten_nil, List.append_nil, Framer.drain_of_incomplete hwait]
    exact h
  | cons c cs ih =>
    have hdrain := Framer.drain_append (F := framer version1Flag) (pending ++ c) cs.flatten
    rw [List.flatten_cons, ← List.append_assoc] at herr ⊢
    cases hc : ((framer version1Flag).drain (pending ++ c)).error with
    | some e =>
      rw [hdrain, hc] at herr
      cases herr
    | none =>
      rw [hc] at hdrain
      rw [hdrain] at herr ⊢
      exact ih (h.2 hc) (Framer.front_drain_rest_of_ok hc) herr

/-- What the loop over the collected input takes from it. -/
def takesAll (d : Deserializer) (input : Bytes) : Drained UInt8 DataMessage Exception :=
  drainFuel (frontUnsigned d.version1Flag) ((d.inputData ++ input).length + 1)
    (d.inputData ++ input)

theorem outcome_collect_takesAll (d : Deserializer) (s : σ) (input : Bytes) :
    outcome (collect messageReceived message input input.length (d, s)) =
      (receive messageReceived message (d.takesAll input) >>=
        fun rest => pure { d with inputData := rest }) s := by
  simp only [collect, addData_all, outcome_processMessages]
  rfl

theorem outcome_collect {buffer : Bytes} (hsize : (d.inputData ++ buffer).length < 2 ^ 32) :
    outcome (collect messageReceived message buffer buffer.length (d, s)) =
      (receive messageReceived message
        ((framer d.version1Flag).drain (d.inputData ++ buffer)) >>=
          fun rest => pure { d with inputData := rest }) s := by
  rw [outcome_collect_takesAll, takesAll, drainFuel_frontUnsigned hsize]

theorem receive_drain_append {version1Flag : Bool} (xs ys : Bytes) :
    receive messageReceived message ((framer version1Flag).drain (xs ++ ys)) s =
      (receive messageReceived message ((framer version1Flag).drain xs) >>= fun rest =>
        receive messageReceived message ((framer version1Flag).drain (rest ++ ys))) s := by
  rw [Framer.drain_append]
  cases herr : ((framer version1Flag).drain xs).error with
  | none =>
    simp only [receive_prepend]
    simp only [receive, herr, bind, EStateM.bind]
    cases deliver messageReceived message ((framer version1Flag).drain xs).messages s <;> rfl
  | some e =>
    simp only [receive, herr, bind, EStateM.bind]
    cases deliver messageReceived message ((framer version1Flag).drain xs).messages s <;> rfl

theorem outcome_eq_ok {α : Type} {r : EStateM.Result Interrupt (Deserializer × σ) α}
    {d : Deserializer} {s : σ} (h : outcome r = .ok d s) : ∃ a, r = .ok a (d, s) := by
  cases r with
  | ok a t =>
    obtain ⟨rfl, rfl⟩ := EStateM.Result.ok.inj h
    exact ⟨a, rfl⟩
  | error e t => cases h

theorem outcome_eq_error {α : Type} {r : EStateM.Result Interrupt (Deserializer × σ) α}
    {e : Interrupt} {s : σ} (h : outcome r = .error e s) : ∃ d, r = .error e (d, s) := by
  cases r with
  | ok a t => cases h
  | error i t =>
    obtain ⟨rfl, rfl⟩ := EStateM.Result.error.inj h
    exact ⟨t.1, rfl⟩

/-- A loop over chunks whose body drains the collected input with its chunk drains the
collected input with all of them. -/
theorem outcome_chunks (body : Bytes → Call (Deserializer × σ) Nat)
    {loop : List Bytes → Call (Deserializer × σ) Unit} (hnil : loop [] = pure ())
    (hcons : ∀ c cs, loop (c :: cs) = body c >>= fun _ => loop cs)
    (hbody : ∀ (d : Deserializer) s c, (framer d.version1Flag).front d.inputData = .incomplete →
      (d.inputData ++ c).length < 2 ^ 32 →
      outcome (body c (d, s)) =
        (receive messageReceived message ((framer d.version1Flag).drain (d.inputData ++ c)) >>=
          fun rest => pure { d with inputData := rest }) s)
    {chunks : List Bytes} (hwait : (framer d.version1Flag).front d.inputData = .incomplete)
    (hsize : StaysBelow d.version1Flag d.inputData chunks) :
    outcome (loop chunks (d, s)) =
      (receive messageReceived message
        ((framer d.version1Flag).drain (d.inputData ++ chunks.flatten)) >>=
          fun rest => pure { d with inputData := rest }) s := by
  induction chunks generalizing d s with
  | nil =>
    rw [hnil, List.flatten_nil, List.append_nil, Framer.drain_of_incomplete hwait]
    rfl
  | cons c cs ih =>
    have hstep := hbody d s c hwait hsize.1
    have hsplit : receive messageReceived message ((framer d.version1Flag).drain
        ((d.inputData ++ c) ++ cs.flatten)) s = _ :=
      receive_drain_append (d.inputData ++ c) cs.flatten
    rw [List.flatten_cons, ← List.append_assoc]
    simp only [bind, EStateM.bind] at hstep hsplit ⊢
    rw [hsplit]
    cases hr : receive messageReceived message
        ((framer d.version1Flag).drain (d.inputData ++ c)) s with
    | error e t =>
      rw [hr] at hstep
      obtain ⟨d', hd'⟩ := outcome_eq_error hstep
      rw [hcons, Call.bind_error hd']
      rfl
    | ok rest t =>
      rw [hr] at hstep
      obtain ⟨count, hd'⟩ := outcome_eq_ok hstep
      have herr : ((framer d.version1Flag).drain (d.inputData ++ c)).error = none ∧
          rest = ((framer d.version1Flag).drain (d.inputData ++ c)).rest := by
        obtain ⟨_, u, -, hu⟩ := Call.bind_eq_ok.mp hr
        cases he : ((framer d.version1Flag).drain (d.inputData ++ c)).error with
        | some e => rw [he] at hu; cases hu
        | none =>
          rw [he] at hu
          exact ⟨rfl, (EStateM.Result.ok.inj hu).1.symm⟩
      obtain ⟨herr, rfl⟩ := herr
      rw [hcons, Call.bind_ok hd']
      exact ih (d := ⟨_, d.version1Flag⟩) (Framer.front_drain_rest_of_ok herr) (hsize.2 herr)

theorem outcome_advanceChunks {chunks : List Bytes}
    (hwait : (framer d.version1Flag).front d.inputData = .incomplete)
    (hsize : StaysBelow d.version1Flag d.inputData chunks) :
    outcome (advanceChunks messageReceived message chunks (d, s)) =
      (receive messageReceived message
        ((framer d.version1Flag).drain (d.inputData ++ chunks.flatten)) >>=
          fun rest => pure { d with inputData := rest }) s := by
  refine outcome_chunks (fun c => advance messageReceived message c c.length) rfl
    (fun _ _ => rfl) (fun d s c hwait hsize => ?_) hwait hsize
  have hlen : c.length < 2 ^ 32 := by simp only [List.length_append] at hsize; omega
  rw [outcome_advance hlen, drained_eq_drain hwait hsize]

theorem outcome_collectChunks {chunks : List Bytes}
    (hwait : (framer d.version1Flag).front d.inputData = .incomplete)
    (hsize : StaysBelow d.version1Flag d.inputData chunks) :
    outcome (collectChunks messageReceived message chunks (d, s)) =
      (receive messageReceived message
        ((framer d.version1Flag).drain (d.inputData ++ chunks.flatten)) >>=
          fun rest => pure { d with inputData := rest }) s :=
  outcome_chunks (fun c => collect messageReceived message c c.length) rfl
    (fun _ _ => rfl) (fun _ _ _ _ hsize => outcome_collect hsize) hwait hsize

end Deserializer

end TntPub
