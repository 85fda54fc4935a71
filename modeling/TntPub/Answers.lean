import TntPub.Replies

namespace TntPub

open Framing

namespace Deployment

variable {rx : Regex} {hook : Hook} {react : ResponderId → Reaction} {d d' : Deployment}
  {i : ResponderId}

/-- A client passes on what its application sends by itself, and then its replies. -/
structure Passes (react : Reaction) (c c' : Client) (own new : List DataMessage) : Prop where
  dispatched : c'.exchange.dispatched = c.exchange.dispatched ++ new
  accepted : c'.accepted = c.accepted ++ own ++ Client.replies react new

theorem passes_own {c c' : Client} {own : List DataMessage} (react : Reaction)
    (hdispatched : c'.exchange.dispatched = c.exchange.dispatched)
    (haccepted : c'.accepted = c.accepted ++ own) : Passes react c c' own [] :=
  ⟨by simp [hdispatched], by simp [haccepted, Client.replies]⟩

/-- Only what its application calls makes a client pass on something by itself. -/
theorem passes_local {c c' : Client} {e : ClientEvent} (react : Reaction) (i : ResponderId)
    (he : e.isLocal = true) (h : c.step e = some c') :
    ∃ own, Passes react c c' own [] ∧ (caller (.client i e) ≠ some i → own = []) := by
  have hcases := Client.step_cases h
  have hquiet {c' : Client} (hdispatched : c'.exchange.dispatched = c.exchange.dispatched)
      (haccepted : c'.accepted = c.accepted) :
      ∃ own, Passes react c c' own [] ∧ (caller (.client i e) ≠ some i → own = []) :=
    ⟨[], passes_own react hdispatched (by rw [haccepted, List.append_nil]), fun _ => rfl⟩
  cases e with
  | call call counts =>
    exact ⟨_, passes_own react (Client.calls_input hcases.2).dispatched
      (Client.accepted_of_calls hcases.2), fun hne => absurd rfl hne⟩
  | output count handler =>
    have hdispatched := (Client.onOutput_input hcases.2).dispatched
    rcases Client.accepted_of_output hcases.2 with hsame | hmore
    · exact hquiet hdispatched hsame
    · refine ⟨_, passes_own react hdispatched hmore, fun hne => ?_⟩
      cases handler with
      | nil => rfl
      | cons call rest => exact absurd rfl hne
  | endWriteFailed unreported =>
    obtain ⟨-, rfl⟩ := hcases
    exact hquiet rfl rfl
  | beginWriteFailed count =>
    obtain ⟨-, d, hd, -, rfl⟩ := hcases
    have haccepted : d.accepted = c.accepted := by simpa using Client.accepted_of_output hd
    exact hquiet (Client.onOutput_input hd).dispatched haccepted
  | endReadFailed unreported =>
    obtain ⟨-, rfl⟩ := hcases
    exact hquiet rfl rfl
  | close unreported =>
    rw [hcases]
    exact hquiet rfl rfl
  | input bytes ending => cases he
  | connect unreported => cases he

/-- A client that is not connected is left alone until its application uses it. -/
theorem stepWith_off {e : DeploymentEvent} (h : d.stepWith rx hook react (.event e) = some d')
    (hc : (d.clients i).connected = false) :
    (d'.clients i = d.clients i ∧ d.arrivals i e = []) ∨
      (∃ autoSync, e = .connect i autoSync) ∨ ∃ unreported, e = .client i (.close unreported) := by
  have hoff (p : Prop) (hon : (d.clients i).connected = true) : p := by
    rw [hc] at hon
    cases hon
  cases e with
  | connect j autoSync =>
    by_cases hij : i = j
    · exact .inr (.inl ⟨autoSync, by rw [hij]⟩)
    · exact .inl ⟨(step_connect h).2 i hij, rfl⟩
  | client j e =>
    obtain ⟨he, hmap⟩ := Option.ite_none_right_eq_some.mp h
    obtain ⟨c, hstep, rfl⟩ := Option.map_eq_some_iff.mp hmap
    by_cases hij : i = j
    · subst hij
      have hcases := Client.step_cases hstep
      cases e with
      | call call counts => exact hoff _ hcases.1
      | output count handler => exact hoff _ hcases.1
      | endWriteFailed unreported => exact hoff _ hcases.1.1
      | beginWriteFailed count => exact hoff _ hcases.1
      | endReadFailed unreported => exact hoff _ hcases.1.1
      | close unreported => exact .inr (.inr ⟨unreported, rfl⟩)
      | input bytes ending => cases he
      | connect unreported => cases he
    · exact .inl ⟨setClient_of_ne d _ hij, rfl⟩
  | clientInput j size ending =>
    obtain ⟨hreads, hmap⟩ := Option.ite_none_right_eq_some.mp h
    obtain ⟨c, hstep, rfl⟩ := Option.map_eq_some_iff.mp hmap
    by_cases hij : i = j
    · subst hij
      exact hoff _ (reads_eq hreads).2.1
    · exact .inl ⟨setClient_of_ne d _ hij, if_neg (Ne.symm hij)⟩
  | slotThrows j size returned => cases h
  | callThrows j call counts inInput unreported =>
    obtain ⟨⟨hon, -⟩, hmap⟩ := Option.ite_none_right_eq_some.mp h
    obtain ⟨c, -, rfl⟩ := Option.map_eq_some_iff.mp hmap
    by_cases hij : i = j
    · subst hij
      exact hoff _ hon
    · exact .inl ⟨setClient_of_ne d _ hij, rfl⟩
  | serverInput j size eof =>
    simp only [stepWith, step] at h
    split at h
    next => cases h
    next =>
      obtain ⟨-, hmap⟩ := Option.ite_none_right_eq_some.mp h
      obtain ⟨hub, -, rfl⟩ := Option.map_eq_some_iff.mp hmap
      exact .inl ⟨rfl, rfl⟩
  | server e =>
    obtain ⟨-, hmap⟩ := Option.ite_none_right_eq_some.mp h
    obtain ⟨hub, -, rfl⟩ := Option.map_eq_some_iff.mp hmap
    exact .inl ⟨rfl, rfl⟩

theorem stepWith_idle {e : DeploymentEvent} (h : d.stepWith rx hook react (.event e) = some d')
    (hc : (d.clients i).connected = false) (hcaller : caller e ≠ some i) :
    d'.clients i = d.clients i ∧ d.arrivals i e = [] := by
  rcases stepWith_off h hc with hsame | ⟨autoSync, rfl⟩ | ⟨unreported, rfl⟩
  · exact hsame
  · exact absurd rfl hcaller
  · exact absurd rfl hcaller

theorem stepWith_passes {e : DeploymentEvent}
    (h : d.stepWith rx hook react (.event e) = some d')
    (i : ResponderId) :
    (∃ own, Passes (react i) (d.clients i) (d'.clients i) own (d.arrivals i e) ∧
        (caller e ≠ some i → own = [])) ∨
      ∃ autoSync, e = .connect i autoSync ∧
        d'.clients i = ({ autoSync := autoSync } : Client).connect 0 := by
  have hsame {d'' : Deployment} (hd : d''.clients i = d.clients i) :
      ∃ own, Passes (react i) (d.clients i) (d''.clients i) own [] ∧
        (caller e ≠ some i → own = []) := by
    rw [hd]
    exact ⟨[], passes_own (react i) rfl (List.append_nil _).symm, fun _ => rfl⟩
  cases e with
  | connect j autoSync =>
    by_cases hij : i = j
    · subst hij
      exact .inr ⟨autoSync, rfl, (step_connect h).1⟩
    · exact .inl (hsame ((step_connect h).2 i hij))
  | client j e =>
    refine .inl ?_
    obtain ⟨he, hmap⟩ := Option.ite_none_right_eq_some.mp h
    obtain ⟨c, hc, rfl⟩ := Option.map_eq_some_iff.mp hmap
    by_cases hij : i = j
    · subst hij
      rw [setClient_self]
      exact passes_local (react i) i he hc
    · exact hsame (setClient_of_ne d _ hij)
  | clientInput j size ending =>
    refine .inl ?_
    obtain ⟨-, hmap⟩ := Option.ite_none_right_eq_some.mp h
    obtain ⟨c, hc, rfl⟩ := Option.map_eq_some_iff.mp hmap
    by_cases hij : i = j
    · subst hij
      obtain ⟨hdispatched, haccepted⟩ := Client.onInputWith_passes hc
      rw [setClient_self, arrivals, if_pos rfl]
      exact ⟨[], ⟨hdispatched, by rw [haccepted, List.append_nil]⟩, fun _ => rfl⟩
    · rw [arrivals, if_neg (Ne.symm hij)]
      exact hsame (setClient_of_ne d _ hij)
  | slotThrows j size returned => cases h
  | callThrows j call counts inInput unreported =>
    refine .inl ?_
    obtain ⟨-, hmap⟩ := Option.ite_none_right_eq_some.mp h
    obtain ⟨c, hthrows, rfl⟩ := Option.map_eq_some_iff.mp hmap
    by_cases hij : i = j
    · subst hij
      obtain ⟨haccepted, hkept⟩ := Client.callThrows_kept hthrows
      obtain ⟨-, hsent, htaken⟩ := c.abandon_same inInput unreported
      rw [setClient_self]
      exact ⟨_, passes_own (react i) (htaken.trans hkept.dispatched) (hsent.trans haccepted),
        fun hne => absurd rfl hne⟩
    · exact hsame (setClient_of_ne d _ hij)
  | serverInput j size eof =>
    refine .inl ?_
    simp only [stepWith, step] at h
    split at h
    next => cases h
    next =>
      obtain ⟨-, hmap⟩ := Option.ite_none_right_eq_some.mp h
      obtain ⟨hub, -, rfl⟩ := Option.map_eq_some_iff.mp hmap
      exact hsame rfl
  | server e =>
    refine .inl ?_
    obtain ⟨-, hmap⟩ := Option.ite_none_right_eq_some.mp h
    obtain ⟨hub, -, rfl⟩ := Option.map_eq_some_iff.mp hmap
    exact hsame rfl

/-- A client has passed on its replies to all messages it was given, in their order. -/
def Replied (react : Reaction) (c : Client) : Prop :=
  (Client.replies react c.exchange.dispatched).Sublist c.accepted

/-- It has passed on a part of them that ends within the replies to the last message. -/
def Stopped (react : Reaction) (c : Client) : Prop :=
  ∃ passed, passed.Sublist c.accepted ∧ passed <+: Client.replies react c.exchange.dispatched ∧
    Client.replies react c.exchange.dispatched.dropLast <+: passed

theorem replied_new (react : Reaction) (autoSync : Bool) :
    Replied react (({ autoSync := autoSync } : Client).connect 0) := List.nil_sublist _

theorem Replied.stopped {react : Reaction} {c : Client} (h : Replied react c) :
    Stopped react c := by
  refine ⟨_, h, List.prefix_rfl, ?_⟩
  obtain ⟨last, hlast⟩ := List.dropLast_prefix c.exchange.dispatched
  have hall := congrArg (Client.replies react) hlast
  rw [Client.replies_append] at hall
  exact ⟨_, hall⟩

theorem Replied.event {e : DeploymentEvent} (hd : Replied (react i) (d.clients i))
    (h : d.stepWith rx hook react (.event e) = some d') : Replied (react i) (d'.clients i) := by
  rcases stepWith_passes h i with ⟨own, hpasses, -⟩ | ⟨autoSync, -, hnew⟩
  · rw [Replied, hpasses.dispatched, Client.replies_append, hpasses.accepted]
    exact (hd.trans (List.sublist_append_left _ _)).append (.refl _)
  · rw [hnew]
    exact replied_new (react i) autoSync

/-- A call that throws is the last one of its client. -/
theorem Replied.throws {react : Reaction} {c c' : Client} {input : Bytes}
    {before unreported : Nat} {counts : List Nat} (hc : Replied react c)
    (h : c.onInputThrowsWith react input before counts unreported = some c') :
    Stopped react c' := by
  obtain ⟨b, hb, hdispatched, haccepted, -⟩ := Client.onInputThrowsWith_passes h
  obtain ⟨hlt, hfront, own, hall⟩ := Client.breakOff_calls hb
  let ms := (c.deserializer.takesAll input).messages
  refine ⟨Client.replies react c.exchange.dispatched ++ b.messages, ?_, ?_, ?_⟩
  · rw [haccepted]
    exact hc.append (.refl _)
  · rw [hdispatched, Client.replies_append, ← Client.messages_eq b own]
    exact (List.prefix_append_right_inj _).mpr (hall.filterMap _)
  · have hlast : (ms.take (b.returned + 1)).dropLast = ms.take b.returned := by
      rw [List.dropLast_eq_take, List.length_take_of_le hlt, List.take_take]
      congr 1
      omega
    have hsome : ms.take (b.returned + 1) ≠ [] := by
      intro hnil
      have hlength := congrArg List.length hnil
      rw [List.length_take_of_le hlt, List.length_nil] at hlength
      omega
    rw [hdispatched, List.dropLast_append_of_ne_nil hsome, hlast, Client.replies_append]
    exact (List.prefix_append_right_inj _).mpr ((hfront.filterMap _).trans (List.prefix_append _ _))

/-- As long as it is connected a client has passed on all of its replies. -/
def Answers (react : Reaction) (c : Client) : Prop :=
  Replied react c ∨ c.connected = false ∧ Stopped react c

theorem Answers.stopped {react : Reaction} {c : Client} (h : Answers react c) :
    Stopped react c :=
  h.elim Replied.stopped And.right

theorem Answers.step {e : ReactingEvent} (hd : Answers (react i) (d.clients i))
    (h : d.stepWith rx hook react e = some d') : Answers (react i) (d'.clients i) := by
  cases e with
  | event e =>
    rcases hd with hreplied | ⟨hc, hstopped⟩
    · exact .inl (hreplied.event h)
    · rcases stepWith_off h hc with ⟨hsame, -⟩ | ⟨autoSync, rfl⟩ | ⟨unreported, rfl⟩
      · rw [hsame]
        exact .inr ⟨hc, hstopped⟩
      · rw [(step_connect h).1]
        exact .inl (replied_new (react i) autoSync)
      · have hclose : some (d.setClient i ((d.clients i).closePeer unreported)) = some d' := h
        rw [← Option.some.inj hclose, setClient_self]
        exact .inr ⟨rfl, hstopped⟩
  | replyThrows j size before counts unreported =>
    obtain ⟨hreads, hmap⟩ := Option.ite_none_right_eq_some.mp h
    obtain ⟨c, hthrows, rfl⟩ := Option.map_eq_some_iff.mp hmap
    by_cases hij : i = j
    · subst hij
      obtain ⟨-, hc, -⟩ := reads_eq hreads
      have hreplied : Replied (react i) (d.clients i) := by
        refine hd.resolve_right fun hoff => ?_
        rw [hoff.1] at hc
        cases hc
      obtain ⟨-, -, -, -, hclosed⟩ := Client.onInputThrowsWith_passes hthrows
      rw [setClient_self]
      exact .inr ⟨hclosed, hreplied.throws hthrows⟩
    · rw [setClient_of_ne d c hij]
      exact hd

theorem Replied.step {e : ReactingEvent} (hd : Replied (react i) (d.clients i))
    (he : e.throwsAt i = false) (h : d.stepWith rx hook react e = some d') :
    Replied (react i) (d'.clients i) := by
  cases e with
  | event e => exact hd.event h
  | replyThrows j size before counts unreported =>
    have hij : i ≠ j := by
      rintro rfl
      simp [ReactingEvent.throwsAt] at he
    obtain ⟨-, hmap⟩ := Option.ite_none_right_eq_some.mp h
    obtain ⟨c, -, rfl⟩ := Option.map_eq_some_iff.mp hmap
    rw [setClient_of_ne d c hij]
    exact hd

/-- Clients that send from a slot of `messageReceived`, in the middle of the loop that takes
messages from their input, could as well send when they have read. Every client has passed on its
replies to all messages it was given, in their order; one whose slot has made a call that throws
has not passed on what the slot was to send behind it, and it is closed. -/
theorem replies_in_order (rx : Regex) (hook : Hook) (react : ResponderId → Reaction)
    (maxOBuf : Nat) (es : List ReactingEvent) (d : Deployment)
    (hrun : Runs.run (stepWith rx hook react) { hub := { server := { maxOBuf := maxOBuf } } } es =
      some d) :
    (∃ es', Runs.run (step rx hook) { hub := { server := { maxOBuf := maxOBuf } } } es' =
      some d) ∧
    ∀ i, (∃ passed, passed.Sublist (d.clients i).accepted ∧
        passed <+: Client.replies (react i) (d.clients i).exchange.dispatched ∧
        Client.replies (react i) (d.clients i).exchange.dispatched.dropLast <+: passed) ∧
      ((d.clients i).connected = true ∨ (∀ e ∈ es, e.throwsAt i = false) →
        (Client.replies (react i) (d.clients i).exchange.dispatched).Sublist
          (d.clients i).accepted) := by
  refine ⟨run_of_stepWith hrun, fun i => ?_⟩
  have hstart : Replied (react i) {} := List.nil_sublist _
  have hanswers : Answers (react i) (d.clients i) :=
    Runs.invariant (fun t _ _ (hd : Answers (react i) (t.clients i)) hstep => hd.step hstep)
      (.inl hstart) hrun
  refine ⟨hanswers.stopped, fun hall => ?_⟩
  rcases hall with hc | hnone
  · refine hanswers.resolve_right fun hoff => ?_
    rw [hoff.1] at hc
    cases hc
  · exact Runs.invariant_of_meets (fun d => Replied (react i) (d.clients i))
      (P := fun _ e => e.throwsAt i = false) (fun _ _ _ he hd hstep => hd.step he hstep)
      hstart (Runs.meets_of_forall hnone) hrun

/-- Client 0 answers what it is given with a message to another topic, client 1 sends it two
messages and a part of a third, and the answer to the second throws. -/
def answeringRun : List ReactingEvent :=
  ([.connect 0 false, .connect 1 true,
    .client 0 (.call (.subscribe ⟨[], 0, 0⟩ { main := [0x61] } .typeFull []) []),
    .serverInput 0 41 false, .client 1 (.call (.sendMessage .greeting) [43]),
    .client 1 (.call (.sendMessage .greeting) [43]),
    .callThrows 1 (.sendMessage .greeting) [20, 22] false 0, .serverInput 1 129 true,
    .server (.output 0 86), .clientInput 0 60 .more, .client 0 (.output 41 []),
    .client 0 (.output 43 [])] : List DeploymentEvent).map .event ++
  [.replyThrows 0 26 0 [] 0]

def readdress : Reaction := fun m => [(.sendMessage { m with topic := { main := [0x62] } }, [])]

theorem replies_in_order_answeringRun :
    ∃ d, Runs.run (stepWith .literal .default fun i => if i = 0 then readdress else fun _ => [])
        { hub := { server := { maxOBuf := 1000 } } } answeringRun = some d ∧
      (d.clients 0).exchange.dispatched.length = 2 ∧ (d.clients 0).connected = false ∧
      ∃ passed, passed.Sublist (d.clients 0).accepted ∧
        passed <+: Client.replies readdress (d.clients 0).exchange.dispatched ∧
        Client.replies readdress (d.clients 0).exchange.dispatched.dropLast <+: passed := by
  have hrun : ∃ d, Runs.run
        (stepWith .literal .default fun i => if i = 0 then readdress else fun _ => [])
        { hub := { server := { maxOBuf := 1000 } } } answeringRun = some d ∧
      (d.clients 0).exchange.dispatched.length = 2 ∧ (d.clients 0).connected = false := by
    decide +kernel
  obtain ⟨d, hd, hdispatched, hc⟩ := hrun
  obtain ⟨-, hparts⟩ := replies_in_order .literal .default _ 1000 answeringRun d hd
  exact ⟨d, hd, hdispatched, hc, (hparts 0).1⟩

end Deployment

end TntPub
