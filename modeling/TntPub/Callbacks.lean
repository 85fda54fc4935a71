import TntPub.HandlerCalls
import TntPub.StreamDecoding

namespace TntPub

open Framing

variable {σ : Type}

namespace Session

/-- The inputs of a client, as long as the next read was begun. A count belongs to a write that
is pending when a handler throws an `IOError`. -/
def reads (rx : Regex) : List (Bytes × Nat) → Act σ Unit
  | [] => pure ()
  | (input, unreported) :: inputs => do
    let r ← access .peer
    if r.client.reading then
      onInput rx input .more unreported
      reads rx inputs
    else pure ()

def streamOf (inputs : List (Bytes × Nat)) : Bytes := (inputs.map Prod.fst).flatten

/-- What the application can tell: the exception that reached it, and its own state. -/
def seen : EStateM.Result Failure (Session σ) Unit → Option Failure × σ
  | .ok _ s => (none, s.app)
  | .error e s => (some e, s.app)

/-- What the application is to see when its handlers were called for the messages of a stream
and the stream ended in this way. -/
def toSee : CallsEnd × σ → Option Exception → Option Failure × σ
  | (.returned, app), none => (none, app)
  | (.returned, app), some e => (some (.deserializer (.exception e)), app)
  | (.destroyed next, app), _ => (some (.useAfterFree next), app)
  | (.thrown .ioError, app), _ => (none, app)
  | (.thrown .other, app), _ => (some (.handler .other), app)

section

variable {rx : Regex} {r : Receiver σ} {app app' : σ} {input : Bytes} {unreported : Nat}
  {inputs : List (Bytes × Nat)}

theorem reads_cons (rx : Regex) (input : Bytes) (unreported : Nat) (inputs : List (Bytes × Nat))
    (app : σ) (hreading : r.client.reading = true) :
    reads rx ((input, unreported) :: inputs) ⟨some r, app⟩ =
      (onInput rx input .more unreported >>= fun _ => reads rx inputs) ⟨some r, app⟩ := by
  simp only [reads, access, bind, EStateM.bind, hreading, if_true]

theorem reads_ended (rx : Regex) (inputs : List (Bytes × Nat)) (app : σ)
    (hreading : r.client.reading = false) :
    reads rx inputs ⟨some r, app⟩ = .ok () ⟨some r, app⟩ := by
  cases inputs with
  | nil => rfl
  | cons i inputs =>
    simp only [reads, access, bind, EStateM.bind, hreading]
    rfl

/-- What one input does to the application when it does not go on reading. -/
theorem onInput_seen
    (h : (runCalls (inputCalls rx r input) app).1 ≠ .returned ∨
      (r.client.deserializer.takesAll input).error ≠ none) (inputs : List (Bytes × Nat)) :
    seen ((onInput rx input .more unreported >>= fun _ => reads rx inputs) ⟨some r, app⟩) =
      toSee (runCalls (inputCalls rx r input) app)
        (r.client.deserializer.takesAll input).error := by
  obtain ⟨c, hread⟩ := readInput_eq rx r input .more app
  cases hrun : runCalls (inputCalls rx r input) app with
  | mk e app' =>
    simp only [hrun] at hread h
    cases e with
    | destroyed next =>
      simp only [bind, EStateM.bind, onInput_catch, hread]
      rfl
    | returned =>
      cases herr : (r.client.deserializer.takesAll input).error with
      | none =>
        rw [herr] at h
        exact absurd h (by simp)
      | some e =>
        rw [herr] at hread
        simp only [bind, EStateM.bind, onInput_catch, hread]
        rfl
    | thrown e =>
      cases e with
      | other =>
        simp only [bind, EStateM.bind, onInput_catch, hread]
        rfl
      | ioError =>
        have hclosed : (c.inputError unreported).reading = false := rfl
        have hend := reads_ended (r := { r with client := c.inputError unreported }) rx inputs
          app' hclosed
        have hclose : setClient (c.inputError unreported) ⟨some { r with client := c }, app'⟩ =
            .ok () ⟨some { r with client := c.inputError unreported }, app'⟩ := rfl
        simp only [bind, EStateM.bind, onInput_catch, hread, access, hclose, hend]
        rfl

theorem toSee_stopped {ending : CallsEnd} (h : ending ≠ .returned) (e e' : Option Exception) :
    toSee (ending, app) e = toSee (ending, app) e' := by
  cases ending with
  | returned => exact absurd rfl h
  | destroyed next => rfl
  | thrown e => cases e <;> rfl

/-- The receiver that goes on reading behind an input. -/
theorem client_onInput_more (herr : (r.client.deserializer.takesAll input).error = none) :
    (r.client.onInput input .more).reading = true ∧
      (r.client.onInput input .more).deserializer =
        { r.client.deserializer with
          inputData := (r.client.deserializer.takesAll input).rest } := by
  obtain ⟨last, hlast⟩ := Client.onInput_eq r.client input .more
  rw [herr] at hlast
  rw [hlast]
  exact ⟨rfl, rfl⟩

theorem reads_seen (rx : Regex) (app : σ) (hreading : r.client.reading = true)
    (hcut : (framer r.client.deserializer.version1Flag).front r.client.deserializer.inputData =
      .incomplete)
    (hsize : Deserializer.StaysBelow r.client.deserializer.version1Flag
      r.client.deserializer.inputData (inputs.map Prod.fst)) :
    seen (reads rx inputs ⟨some r, app⟩) =
      toSee
        (runCalls (((framer r.client.deserializer.version1Flag).drain
          (r.client.deserializer.inputData ++ streamOf inputs)).messages.flatMap
            (r.handlerCalls rx)) app)
        ((framer r.client.deserializer.version1Flag).drain
          (r.client.deserializer.inputData ++ streamOf inputs)).error := by
  induction inputs generalizing r app with
  | nil =>
    rw [streamOf, List.map_nil, List.flatten_nil, List.append_nil,
      Framer.drain_of_incomplete hcut]
    rfl
  | cons i inputs ih =>
    obtain ⟨input, unreported⟩ := i
    have htakes : r.client.deserializer.takesAll input =
        (framer r.client.deserializer.version1Flag).drain
          (r.client.deserializer.inputData ++ input) :=
      Deserializer.drainFuel_frontUnsigned hsize.1
    have hstream : r.client.deserializer.inputData ++ streamOf ((input, unreported) :: inputs) =
        r.client.deserializer.inputData ++ input ++ streamOf inputs := by
      simp [streamOf]
    have hcalls : inputCalls rx r input = ((framer r.client.deserializer.version1Flag).drain
        (r.client.deserializer.inputData ++ input)).messages.flatMap (r.handlerCalls rx) := by
      rw [inputCalls, htakes]
    rw [reads_cons rx input unreported inputs app hreading, hstream, Framer.drain_append]
    cases herr : ((framer r.client.deserializer.version1Flag).drain
        (r.client.deserializer.inputData ++ input)).error with
    | some e =>
      rw [onInput_seen (.inr (by rw [htakes, herr]; simp)), hcalls, htakes, herr]
    | none =>
      cases hrun : runCalls (inputCalls rx r input) app with
      | mk ending app' =>
        simp only [Drained.prepend_messages, Drained.prepend_error,
          List.flatMap_append, ← hcalls]
        by_cases hend : ending = .returned
        · subst hend
          have hone := onInput_returned .more unreported hrun (by rw [htakes, herr])
          obtain ⟨hreading', hrest⟩ := client_onInput_more (r := r) (by rw [htakes, herr])
          rw [htakes] at hrest
          have hnext := ih (r := { r with client := r.client.onInput input .more }) app' hreading'
            (by rw [hrest]; exact Framer.front_drain_rest_of_ok herr)
            (by rw [hrest]; exact hsize.2 herr)
          rw [runCalls_append_returned _ hrun]
          simp only [hrest] at hnext
          simp only [bind, EStateM.bind, hone]
          exact hnext
        · rw [runCalls_append_left _ hrun hend, onInput_seen (.inl (by rw [hrun]; exact hend)),
            hrun]
          exact toSee_stopped hend _ _

/-- What the handlers of an application do, exceptions and the destruction of the client
included, depends on the stream of bytes and not on the reads it comes in. -/
theorem handlers_see_the_stream (rx : Regex) (r : Receiver σ) (app : σ)
    (inputs inputs' : List (Bytes × Nat)) (hreading : r.client.reading = true)
    (hcut : (framer r.client.deserializer.version1Flag).front r.client.deserializer.inputData =
      .incomplete)
    (hsize : Deserializer.StaysBelow r.client.deserializer.version1Flag
      r.client.deserializer.inputData (inputs.map Prod.fst))
    (hsize' : Deserializer.StaysBelow r.client.deserializer.version1Flag
      r.client.deserializer.inputData (inputs'.map Prod.fst))
    (hstream : streamOf inputs = streamOf inputs') :
    seen (reads rx inputs ⟨some r, app⟩) = seen (reads rx inputs' ⟨some r, app⟩) ∧
      seen (reads rx inputs ⟨some r, app⟩) =
        toSee
          (runCalls (((framer r.client.deserializer.version1Flag).drain
            (r.client.deserializer.inputData ++ streamOf inputs)).messages.flatMap
              (r.handlerCalls rx)) app)
          ((framer r.client.deserializer.version1Flag).drain
            (r.client.deserializer.inputData ++ streamOf inputs)).error := by
  have h := reads_seen rx app hreading hcut hsize
  refine ⟨?_, h⟩
  rw [h, reads_seen rx app hreading hcut hsize', hstream]

end

/-- A slot that counts the messages and throws an `IOError` at the second one. -/
def impatient : Receiver Nat where
  client := ({} : Client).connect 0
  messageReceived := [fun _ n => (if n = 1 then .thrown .ioError else .returned, n + 1)]

def threeGreetings : Bytes :=
  DataMessage.greeting.frame ++ DataMessage.greeting.frame ++ DataMessage.greeting.frame

theorem handlers_see_the_stream_impatient :
    seen (reads .literal [(threeGreetings, 0)] ⟨some impatient, 0⟩) =
        seen (reads .literal [(threeGreetings.take 33, 0), (threeGreetings.drop 33, 0)]
          ⟨some impatient, 0⟩) ∧
      seen (reads .literal [(threeGreetings, 0)] ⟨some impatient, 0⟩) = (none, 2) := by
  have hcut : (framer false).front [] = .incomplete := (framer false).front_nil
  obtain ⟨hsame, -⟩ := handlers_see_the_stream .literal impatient 0 [(threeGreetings, 0)]
    [(threeGreetings.take 33, 0), (threeGreetings.drop 33, 0)] rfl hcut
    (Deserializer.staysBelow_of_total (by decide +kernel))
    (Deserializer.staysBelow_of_total (by decide +kernel)) (by decide +kernel)
  exact ⟨hsame, by decide +kernel⟩

end Session

end TntPub
