import TntPub.CommonOrder
import TntPub.Broken

namespace TntPub

open Framing

/-- The events with such clients: a call of a slot throws when these many calls for the messages
of a read have returned. -/
inductive ReactingEvent
  | event (e : DeploymentEvent)
  | replyThrows (i : ResponderId) (size before : Nat) (counts : List Nat) (unreported : Nat)

/-- A call of a slot of this client throws. -/
def ReactingEvent.throwsAt (i : ResponderId) : ReactingEvent → Bool
  | .event _ => false
  | .replyThrows j _ _ _ _ => j == i

namespace Deployment

variable {rx : Regex} {hook : Hook} {react : ResponderId → Reaction} {d d' : Deployment}
  {i : ResponderId}

/-- A client reads, and the messages it is given ask only for calls that fit. -/
def reads (react : ResponderId → Reaction) (d : Deployment) (i : ResponderId) (bytes : Bytes) :
    Bool :=
  let c := d.clients i
  (c.deserializer.inputData ++ bytes).length < 2 ^ 32 && c.connected && c.reading &&
    (c.reactions (react i) bytes).all fun call => call.1.fits

/-- One event of a deployment with clients that send from a slot of `messageReceived`. These slots
throw only what a call of their client throws. -/
def stepWith (rx : Regex) (hook : Hook) (react : ResponderId → Reaction) (d : Deployment) :
    ReactingEvent → Option Deployment
  | .event (.clientInput i size ending) =>
    let bytes := (d.toClient i).take size
    if d.reads react i bytes then
      ((d.clients i).onInputWith (react i) bytes ending).map (d.setClient i)
    else none
  | .event (.slotThrows _ _ _) => none
  | .event e => d.step rx hook e
  | .replyThrows i size before counts unreported =>
    let bytes := (d.toClient i).take size
    if d.reads react i bytes then
      ((d.clients i).onInputThrowsWith (react i) bytes before counts unreported).map
        (d.setClient i)
    else none

def callEvents (i : ResponderId) (l : List (ClientCall × List Nat)) : List DeploymentEvent :=
  l.map fun call => .client i (.call call.1 call.2)

theorem run_callEvents {c : Client} {l : List (ClientCall × List Nat)} (d : Deployment)
    (hc : c.connected = true) (hfits : l.all fun call => call.1.fits) :
    Runs.run (step rx hook) (d.setClient i c) (callEvents i l) =
      (c.calls l).map (d.setClient i) := by
  induction l generalizing c with
  | nil => rfl
  | cons first rest ih =>
    obtain ⟨hfirst, hrest⟩ := Bool.and_eq_true_iff.mp hfits
    have hone : (d.setClient i c).step rx hook (.client i (.call first.1 first.2)) =
        (c.call first.2 first.1).map (d.setClient i) := by
      simp only [step, ClientEvent.isLocal, hfirst, if_true, setClient_self, Client.step, hc]
      congr 1
      funext c'
      exact setClient_setClient d i c c'
    simp only [callEvents, List.map_cons, Runs.run, hone, Client.calls]
    cases hcall : c.call first.2 first.1 with
    | none => rfl
    | some c' =>
      have hsame : Client.SameInput c c' :=
        Client.calls_input (l := [first]) (by simpa [Client.calls] using hcall)
      exact ih (hsame.connected.trans hc) hrest

theorem run_clientInput {size : Nat} {ending : InputEnd} {c : Client}
    {l : List (ClientCall × List Nat)}
    (hsize : ((d.clients i).deserializer.inputData ++ (d.toClient i).take size).length < 2 ^ 32)
    (hc : (d.clients i).connected = true) (hreading : (d.clients i).reading = true)
    (hopen : ((d.clients i).onInput ((d.toClient i).take size) ending).connected = true)
    (hfits : l.all fun call => call.1.fits)
    (hcalls : ((d.clients i).onInput ((d.toClient i).take size) ending).calls l = some c) :
    Runs.run (step rx hook) d (.clientInput i size ending :: callEvents i l) =
      some (d.setClient i c) := by
  have hinput : d.step rx hook (.clientInput i size ending) =
      some (d.setClient i ((d.clients i).onInput ((d.toClient i).take size) ending)) := by
    simp only [step, hsize, if_true, Client.step, hc, hreading, Bool.and_self, Option.map_some]
  refine Runs.run_cons.mpr ⟨_, hinput, ?_⟩
  rw [run_callEvents d hopen hfits, hcalls]
  rfl

/-- The events of a deployment without such slots that come to the same. -/
def expand (react : ResponderId → Reaction) (d : Deployment) :
    ReactingEvent → List DeploymentEvent
  | .event (.clientInput i size ending) =>
    let bytes := (d.toClient i).take size
    let calls := callEvents i ((d.clients i).reactions (react i) bytes)
    match ((d.clients i).deserializer.takesAll bytes).error, ending with
    | none, .failed unreported =>
      .clientInput i size .more :: calls ++ [.client i (.endReadFailed unreported)]
    | _, _ => .clientInput i size ending :: calls
  | .event e => [e]
  | .replyThrows i size before counts unreported =>
    let bytes := (d.toClient i).take size
    match Client.breakOff (react i) before ((d.clients i).deserializer.takesAll bytes).messages with
    | none => []
    | some b =>
      .slotThrows i size b.returned :: callEvents i b.calls ++
        [.callThrows i b.call counts true unreported]

theorem reads_eq {bytes : Bytes} (h : d.reads react i bytes = true) :
    ((d.clients i).deserializer.inputData ++ bytes).length < 2 ^ 32 ∧
      (d.clients i).connected = true ∧ (d.clients i).reading = true ∧
      ((d.clients i).reactions (react i) bytes).all (fun call => call.1.fits) = true := by
  simpa [reads, and_assoc] using h

theorem run_failingInput {size unreported : Nat} {c : Client}
    {l : List (ClientCall × List Nat)}
    (hopen : ((d.clients i).onInput ((d.toClient i).take size) .more).connected = true)
    (hreading : ((d.clients i).onInput ((d.toClient i).take size) .more).reading = true)
    (hcalls : ((d.clients i).onInput ((d.toClient i).take size) .more).calls l = some c)
    (hrun : Runs.run (step rx hook) d (.clientInput i size .more :: callEvents i l) =
      some (d.setClient i c)) :
    Runs.run (step rx hook) d
        (.clientInput i size .more :: callEvents i l ++ [.client i (.endReadFailed unreported)]) =
      some (d.setClient i (c.inputError unreported)) := by
  have hsame := Client.calls_input hcalls
  rw [Runs.run_append, hrun]
  refine Runs.run_cons.mpr ⟨_, ?_, rfl⟩
  simp only [step, ClientEvent.isLocal, if_true, setClient_self, Client.step,
    hsame.connected.trans hopen, hsame.reading.trans hreading, Bool.and_self, Option.map_some,
    setClient_setClient]

theorem stepWith_clientInput {size : Nat} {ending : InputEnd}
    (h : d.stepWith rx hook react (.event (.clientInput i size ending)) = some d') :
    Runs.run (step rx hook) d (d.expand react (.event (.clientInput i size ending))) =
      some d' := by
  obtain ⟨hreads, h⟩ := Option.ite_none_right_eq_some.mp h
  obtain ⟨hsize, hc, hreading, hfits⟩ := reads_eq hreads
  obtain ⟨c, hinput, rfl⟩ := Option.map_eq_some_iff.mp h
  have hplain (ending : InputEnd) :=
    Client.onInput_eq (d.clients i) ((d.toClient i).take size) ending
  rw [Client.onInputWith_eq] at hinput
  simp only [expand]
  cases herr : ((d.clients i).deserializer.takesAll ((d.toClient i).take size)).error with
  | some e =>
    rw [herr] at hinput
    obtain ⟨last, hlast⟩ := hplain ending
    rw [herr] at hlast
    exact run_clientInput hsize hc hreading (by rw [hlast]; exact hc) hfits hinput
  | none =>
    rw [herr] at hinput
    simp only [herr] at hplain
    cases ending with
    | more =>
      obtain ⟨last, hlast⟩ := hplain .more
      exact run_clientInput hsize hc hreading (by rw [hlast]; exact hc) hfits hinput
    | eof =>
      obtain ⟨last, hlast⟩ := hplain .eof
      exact run_clientInput hsize hc hreading (by rw [hlast]; exact hc) hfits hinput
    | failed unreported =>
      obtain ⟨c', hcalls, rfl⟩ := Option.map_eq_some_iff.mp hinput
      obtain ⟨last, hlast⟩ := hplain .more
      have hopen : ((d.clients i).onInput ((d.toClient i).take size) .more).connected = true := by
        rw [hlast]
        exact hc
      exact run_failingInput hopen (by rw [hlast]) hcalls
        (run_clientInput hsize hc hreading hopen hfits hcalls)

/-- The calls of a slot that return can be made when `onInput` has been left. -/
theorem stepWith_replyThrows {size before unreported : Nat} {counts : List Nat}
    (h : d.stepWith rx hook react (.replyThrows i size before counts unreported) = some d') :
    Runs.run (step rx hook) d (d.expand react (.replyThrows i size before counts unreported)) =
      some d' := by
  obtain ⟨hreads, h⟩ := Option.ite_none_right_eq_some.mp h
  obtain ⟨hsize, hc, hreading, hfits⟩ := reads_eq hreads
  obtain ⟨c, hinput, rfl⟩ := Option.map_eq_some_iff.mp h
  rw [Client.onInputThrowsWith_eq] at hinput
  obtain ⟨b, hb, hinput⟩ := Option.bind_eq_some_iff.mp hinput
  obtain ⟨left, hleft, hinput⟩ := Option.bind_eq_some_iff.mp hinput
  obtain ⟨called, hcalled, hinput⟩ := Option.bind_eq_some_iff.mp hinput
  obtain ⟨thrown, hthrown, rfl⟩ := Option.map_eq_some_iff.mp hinput
  obtain ⟨-, -, -, -, hsame⟩ := Client.onInputThrows_left hleft
  obtain ⟨-, -, last, hreplies⟩ := Client.breakOff_calls hb
  have hmade : ∀ call ∈ b.calls ++ [(b.call, last)], call.1.fits = true := by
    intro call hcall
    apply List.all_eq_true.mp hfits
    obtain ⟨m, hm, hmade⟩ := List.mem_flatMap.mp (hreplies.subset hcall)
    exact List.mem_flatMap.mpr ⟨m, List.mem_of_mem_take hm, hmade⟩
  have hcalls : b.calls.all (fun call => call.1.fits) = true :=
    List.all_eq_true.mpr fun call hcall => hmade call (List.mem_append_left _ hcall)
  have hcall : b.call.fits = true := hmade (b.call, last) (by simp)
  have hopen : left.connected = true := hsame.connected.trans hc
  simp only [expand, hb, List.cons_append]
  refine Runs.run_cons.mpr ⟨d.setClient i left, ?_, ?_⟩
  · simp only [step, hsize, hc, hreading, and_self, if_true, hleft, Option.map_some]
  · rw [Runs.run_append, run_callEvents d hopen hcalls, hcalled]
    refine Runs.run_cons.mpr ⟨_, ?_, rfl⟩
    have hopen' : called.connected = true := (Client.calls_input hcalled).connected.trans hopen
    simp only [step, setClient_self, hopen', hcall, and_self, if_true, hthrown, Option.map_some,
      setClient_setClient, Client.abandon]

theorem stepWith_expand {e : ReactingEvent} (h : d.stepWith rx hook react e = some d') :
    Runs.run (step rx hook) d (d.expand react e) = some d' := by
  cases e with
  | replyThrows i size before counts unreported => exact stepWith_replyThrows h
  | event e =>
    cases e with
    | clientInput i size ending => exact stepWith_clientInput h
    | slotThrows i size returned => cases h
    | connect i autoSync => exact Runs.run_cons.mpr ⟨d', h, rfl⟩
    | client i e => exact Runs.run_cons.mpr ⟨d', h, rfl⟩
    | callThrows i call counts inInput unreported => exact Runs.run_cons.mpr ⟨d', h, rfl⟩
    | serverInput i size eof => exact Runs.run_cons.mpr ⟨d', h, rfl⟩
    | server e => exact Runs.run_cons.mpr ⟨d', h, rfl⟩

/-- Every run of clients that send from a slot of `messageReceived`, in the middle of the loop
that takes messages from their input, is a run of clients that send when they have read. -/
theorem run_of_stepWith {es : List ReactingEvent}
    (h : Runs.run (stepWith rx hook react) d es = some d') :
    ∃ es', Runs.run (step rx hook) d es' = some d' :=
  Runs.run_of_steps id (fun _ _ _ h => ⟨_, stepWith_expand h⟩) h

/-- The client whose application calls a member function by itself. -/
def caller : DeploymentEvent → Option ResponderId
  | .connect i _ => some i
  | .client i (.call _ _) => some i
  | .client i (.output _ handler) => if handler.isEmpty then none else some i
  | .client i (.close _) => some i
  | .callThrows i _ _ _ _ => some i
  | _ => none

end Deployment

end TntPub
