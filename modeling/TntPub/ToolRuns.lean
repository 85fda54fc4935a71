import TntPub.ToolClients

namespace TntPub

open Framing Broadcast Lines

/-- Only a call of `sendMessage` adds to what a server sends by itself. -/
theorem Hub.step_kept {rx : Regex} {hook : Hook} {h h' : Hub} {e : HubEvent}
    (hstep : h.step rx hook e = some h') :
    h.connected ⊆ h'.connected ∧ ((∀ m, e ≠ .send m) → h'.own = h.own) := by
  cases e with
  | connect id =>
    simp only [Hub.step] at hstep
    split at hstep
    next => cases hstep
    next =>
      obtain rfl := Option.some.inj hstep
      exact ⟨List.subset_append_left _ _, fun _ => rfl⟩
  | input id bytes eof =>
    obtain ⟨t, -, rfl⟩ := after_eq hstep
    exact ⟨List.Subset.refl _, fun _ => rfl⟩
  | readFailed id =>
    simp only [Hub.step] at hstep
    split at hstep
    next => cases hstep
    next =>
      obtain ⟨t, -, rfl⟩ := after_eq hstep
      exact ⟨List.Subset.refl _, fun _ => rfl⟩
  | output id count =>
    simp only [Hub.step] at hstep
    split at hstep
    next => cases hstep
    next =>
      obtain rfl := Option.some.inj hstep
      exact ⟨List.Subset.refl _, fun _ => rfl⟩
  | outputFailed id =>
    obtain ⟨t, -, rfl⟩ := after_eq hstep
    exact ⟨List.Subset.refl _, fun _ => rfl⟩
  | send m =>
    obtain ⟨t, -, rfl⟩ := after_eq hstep
    exact ⟨List.Subset.refl _, fun hsend => absurd rfl (hsend m)⟩

namespace Deployment

variable {rx : Regex} {hook : Hook} {d d' : Deployment} {log : Log} {i : ResponderId}

theorem step_client {e : ClientEvent} (h : d.step rx hook (.client i e) = some d') :
    ∃ c, (d.clients i).step e = some c ∧ d' = d.setClient i c := by
  obtain ⟨-, hmap⟩ := Option.ite_none_right_eq_some.mp h
  obtain ⟨c, hc, rfl⟩ := Option.map_eq_some_iff.mp hmap
  exact ⟨c, hc, rfl⟩

/-- A client takes only whole messages from what it reads, and waits for more. -/
theorem Linked.takesAll (size : Nat) (hl : d.Linked rx hook log)
    (hhook : ∀ id m k, m.Encodable → hook id m = some k → k.Encodable)
    (hc : (d.clients i).connected = true) (hreading : (d.clients i).reading = true) :
    ((d.clients i).deserializer.takesAll ((d.toClient i).take size)).error = none ∧
      frontUnsigned (d.clients i).deserializer.version1Flag
        ((d.clients i).deserializer.takesAll ((d.toClient i).take size)).rest = .incomplete := by
  obtain ⟨-, hdown⟩ := (hl.channel i).down hc hreading
  obtain ⟨left, hmatched, hleft⟩ := hdown.waiting
  have hbytes : (d.toClient i).take size <+:
      (frames (d.hub.server.matchedBy rx i)).drop (d.clients i).readCount :=
    (List.take_prefix _ _).trans ((hl.published.written i).drop _)
  have hwaiting : frames left = (d.clients i).deserializer.inputData ++
      (frames (d.hub.server.matchedBy rx i)).drop (d.clients i).readCount := hleft
  have hprefix : (d.clients i).deserializer.inputData ++ ((d.toClient i).take size ++ []) <+:
      frames left := by
    rw [hwaiting, List.append_nil]
    exact (List.prefix_append_right_inj _).mpr hbytes
  obtain ⟨herr, hrest, -⟩ := takesAll_of_frames (fun m hm => hl.encodable hhook i m (by
    rw [hmatched]; exact List.mem_append_right _ hm)) hprefix
  exact ⟨herr, hrest⟩

end Deployment

namespace Shell

variable {rx : Regex} {s s' : Shell} {commands : ResponderId → Option Command} {i : ResponderId}
  {command : Command} {tool : Tool} {d : Deployment} {c : Client}

/-- Every tool works, and one that is not connected has not begun. -/
structure Working (rx : Regex) (commands : ResponderId → Option Command) (s : Shell) : Prop where
  linked : ∃ log, s.deployment.Linked rx .default log
  own : s.deployment.hub.own = []
  others : ∀ i, commands i = none → s.tools i = none
  idle : ∀ i command, commands i = some command → i ∉ s.deployment.hub.connected →
    s.deployment.clients i = {} ∧ s.tools i = some command.launch
  works : ∀ i command, commands i = some command → ∃ tool, s.tools i = some tool ∧
    command.Works tool (s.deployment.clients i)

theorem working_start (rx : Regex) (maxOBuf : Nat) (commands : ResponderId → Option Command) :
    Working rx commands (start maxOBuf commands) where
  linked := ⟨[], Deployment.linked_new rx .default maxOBuf⟩
  own := rfl
  others _ hi := congrArg (Option.map Command.launch) hi
  idle _ _ hi _ := ⟨rfl, congrArg (Option.map Command.launch) hi⟩
  works _ command hi :=
    ⟨command.launch, congrArg (Option.map Command.launch) hi, works_launch command rfl rfl rfl⟩

theorem Working.command_of_tool (h : Working rx commands s) (htool : s.tools i = some tool) :
    ∃ command, commands i = some command ∧ command.Works tool (s.deployment.clients i) := by
  cases hcommand : commands i with
  | none =>
    rw [h.others i hcommand] at htool
    cases htool
  | some command =>
    obtain ⟨tool', htool', hworks⟩ := h.works i command hcommand
    obtain rfl := Option.some.inj (htool.symm.trans htool')
    exact ⟨command, rfl, hworks⟩

theorem Working.connected (h : Working rx commands s) (hcommand : commands i = some command)
    (hc : (s.deployment.clients i).connected = true) : i ∈ s.deployment.hub.connected := by
  by_contra hi
  rw [(h.idle i command hcommand hi).1] at hc
  cases hc

/-- One tool goes on with its client. -/
theorem Working.move {log : Log} (h : Working rx commands s) (hcommand : commands i = some command)
    (hi : i ∈ s.deployment.hub.connected)
    (hlinked : (s.deployment.setClient i c).Linked rx .default log)
    (hworks : command.Works tool c) :
    Working rx commands ({ s with deployment := s.deployment.setClient i c }.setTool i tool) where
  linked := ⟨log, hlinked⟩
  own := h.own
  others j hj := by
    have hji : j ≠ i := by
      rintro rfl
      rw [hj] at hcommand
      cases hcommand
    show Function.update s.tools i _ j = none
    rw [Function.update_of_ne hji]
    exact h.others j hj
  idle j other hj hjoff := by
    have hji : j ≠ i := fun heq => hjoff (heq ▸ hi)
    show Function.update s.deployment.clients i c j = {} ∧ Function.update s.tools i _ j = _
    rw [Function.update_of_ne hji, Function.update_of_ne hji]
    exact h.idle j other hj hjoff
  works j other hj := by
    show ∃ tool', Function.update s.tools i _ j = some tool' ∧
      other.Works tool' (Function.update s.deployment.clients i c j)
    by_cases hji : j = i
    · subst hji
      obtain rfl := Option.some.inj (hcommand.symm.trans hj)
      rw [Function.update_self, Function.update_self]
      exact ⟨tool, rfl, hworks⟩
    · rw [Function.update_of_ne hji, Function.update_of_ne hji]
      exact h.works j other hj

/-- What others do changes nothing for the tools. -/
theorem isOther_step {e : DeploymentEvent} (he : s.isOther e = true)
    (hstep : s.deployment.step rx .default e = some d) :
    (∀ i, (s.tools i).isSome = true → d.clients i = s.deployment.clients i) ∧
      d.hub.own = s.deployment.hub.own ∧ s.deployment.hub.connected ⊆ d.hub.connected := by
  have hset (i : ResponderId) (hi : (s.tools i).isNone = true) (c : Client) :
      ∀ j, (s.tools j).isSome = true →
        (s.deployment.setClient i c).clients j = s.deployment.clients j := by
    intro j hj
    have hji : j ≠ i := by
      rintro rfl
      rw [← Option.not_isSome, hj] at hi
      cases hi
    exact Function.update_of_ne hji _ _
  cases e with
  | connect i autoSync =>
    obtain ⟨hub, hhub, rfl⟩ := Option.map_eq_some_iff.mp hstep
    obtain ⟨hconnected, hown⟩ := Hub.step_kept hhub
    exact ⟨hset i he _, hown (fun _ hsend => by cases hsend), hconnected⟩
  | client i e =>
    obtain ⟨c, -, rfl⟩ := Deployment.step_client hstep
    exact ⟨hset i he c, rfl, List.Subset.refl _⟩
  | clientInput i size ending =>
    obtain ⟨-, hmap⟩ := Option.ite_none_right_eq_some.mp hstep
    obtain ⟨c, -, rfl⟩ := Option.map_eq_some_iff.mp hmap
    exact ⟨hset i he c, rfl, List.Subset.refl _⟩
  | slotThrows i size returned =>
    obtain ⟨-, hmap⟩ := Option.ite_none_right_eq_some.mp hstep
    obtain ⟨c, -, rfl⟩ := Option.map_eq_some_iff.mp hmap
    exact ⟨hset i he c, rfl, List.Subset.refl _⟩
  | callThrows i call counts inInput unreported =>
    obtain ⟨-, hmap⟩ := Option.ite_none_right_eq_some.mp hstep
    obtain ⟨c, -, rfl⟩ := Option.map_eq_some_iff.mp hmap
    exact ⟨hset i he _, rfl, List.Subset.refl _⟩
  | serverInput i size eof =>
    simp only [Deployment.step] at hstep
    split at hstep
    next => cases hstep
    next =>
      obtain ⟨-, hmap⟩ := Option.ite_none_right_eq_some.mp hstep
      obtain ⟨hub, hhub, rfl⟩ := Option.map_eq_some_iff.mp hmap
      obtain ⟨hconnected, hown⟩ := Hub.step_kept hhub
      exact ⟨fun _ _ => rfl, hown (fun _ hsend => by cases hsend), hconnected⟩
  | server e =>
    obtain ⟨-, hmap⟩ := Option.ite_none_right_eq_some.mp hstep
    obtain ⟨hub, hhub, rfl⟩ := Option.map_eq_some_iff.mp hmap
    obtain ⟨hconnected, hown⟩ := Hub.step_kept hhub
    refine ⟨fun _ _ => rfl, hown fun m => ?_, hconnected⟩
    rintro rfl
    cases he

theorem Working.other {e : DeploymentEvent} (h : Working rx commands s) (he : s.isOther e = true)
    (hstep : s.deployment.step rx .default e = some d) :
    Working rx commands { s with deployment := d } := by
  obtain ⟨hclients, hown, hconnected⟩ := isOther_step he hstep
  obtain ⟨log, hl⟩ := h.linked
  obtain ⟨more, hl'⟩ := hl.step (fun _ _ _ hm hk => Option.some.inj hk ▸ hm) hstep
  have hsame (i : ResponderId) (command : Command) (hi : commands i = some command) :
      d.clients i = s.deployment.clients i := by
    obtain ⟨tool, htool, -⟩ := h.works i command hi
    exact hclients i (by rw [htool]; rfl)
  refine ⟨⟨_, hl'⟩, hown.trans h.own, h.others, fun i command hi hoff => ?_,
    fun i command hi => ?_⟩
  · show d.clients i = {} ∧ _
    rw [hsame i command hi]
    exact h.idle i command hi fun hmem => hoff (hconnected hmem)
  · show ∃ tool, s.tools i = some tool ∧ command.Works tool (d.clients i)
    rw [hsame i command hi]
    exact h.works i command hi

theorem encodable_default (id : ResponderId) (m k : DataMessage) (hm : m.Encodable)
    (hk : Hook.default id m = some k) : k.Encodable := Option.some.inj hk ▸ hm

/-- A tool makes its connection once, before anything else. -/
theorem Working.start (h : Working rx commands s) (htool : (s.tools i).isSome = true)
    (hstep : s.deployment.step rx .default (.connect i true) = some d) :
    Working rx commands { s with deployment := d } := by
  obtain ⟨log, hl⟩ := h.linked
  obtain ⟨more, hl'⟩ := hl.step encodable_default hstep
  obtain ⟨hnew, hothers⟩ := Deployment.step_connect hstep
  obtain ⟨hub, hhub, rfl⟩ := Option.map_eq_some_iff.mp hstep
  have hfresh : i ∉ s.deployment.hub.connected := by
    intro hi
    simp only [Hub.step, if_pos hi] at hhub
    cases hhub
  have hconnected : hub.connected = s.deployment.hub.connected ++ [i] := by
    simp only [Hub.step, if_neg hfresh] at hhub
    rw [← Option.some.inj hhub]
  obtain ⟨-, hown⟩ := Hub.step_kept hhub
  have hsilent : hub.own = [] := (hown (fun _ hsend => by cases hsend)).trans h.own
  refine ⟨⟨_, hl'⟩, hsilent, h.others, fun j command hj hoff => ?_, fun j command hj => ?_⟩
  · have hnot : j ∉ s.deployment.hub.connected ∧ j ≠ i := by
      have hoff' : j ∉ hub.connected := hoff
      rw [hconnected] at hoff'
      simpa using hoff'
    obtain ⟨hclient, htool'⟩ := h.idle j command hj hnot.1
    exact ⟨(hothers j hnot.2).trans hclient, htool'⟩
  · by_cases hji : j = i
    · subst hji
      obtain ⟨-, htool'⟩ := h.idle j command hj hfresh
      refine ⟨command.launch, htool', ?_⟩
      show command.Works command.launch
        (Function.update s.deployment.clients j (({ autoSync := true } : Client).connect 0) j)
      rw [Function.update_self]
      exact works_launch command rfl rfl rfl
    · obtain ⟨tool, htool', hworks⟩ := h.works j command hj
      refine ⟨tool, htool', ?_⟩
      have hsame := hothers j hji
      rw [← hsame] at hworks
      exact hworks

theorem Working.line {topic stdin msg rest : Bytes} {o : Origin} {counts : List Nat}
    {throws : Bool} (h : Working rx commands s)
    (htool : s.tools i = some (.tntpubSend topic stdin))
    (hline : getline newline stdin = some (msg, rest))
    (hstep : s.deployment.step rx .default (.calling i (.sendMessage
      (DataMessage.createPlain o { main := topic } msg)) counts throws) = some d) :
    Working rx commands ({ s with deployment := d }.setTool i (.tntpubSend topic rest)) := by
  obtain ⟨command, hcommand, hworks⟩ := h.command_of_tool htool
  obtain ⟨log, hl⟩ := h.linked
  obtain ⟨more, hl'⟩ := hl.step encodable_default hstep
  obtain ⟨hc, c, rfl, haccepted, -⟩ := Deployment.step_calling hstep
  refine h.move hcommand (h.connected hcommand hc) hl' ?_
  cases command with
  | tntpubRead byPrefix regex topics => exact hworks.elim
  | tntpubSend topic' stdin' =>
    obtain ⟨rfl, hsending⟩ := hworks
    exact ⟨rfl, hsending.line hline haccepted⟩

theorem Working.subscribe {p : TntPubRead} {topic : Bytes} {topics : List Bytes} {o : Origin}
    {counts : List Nat} {throws : Bool} (h : Working rx commands s)
    (htool : s.tools i = some (.tntpubRead p)) (htopics : p.topics = topic :: topics)
    (hstep : s.deployment.step rx .default (.calling i (.subscribe o { main := topic }
      (subscriptionTypeOf p.byPrefix p.regex) []) counts throws) = some d) :
    Working rx commands ({ s with deployment := d }.setTool i
      (.tntpubRead { p with topics := topics })) := by
  obtain ⟨command, hcommand, hworks⟩ := h.command_of_tool htool
  obtain ⟨log, hl⟩ := h.linked
  obtain ⟨more, hl'⟩ := hl.step encodable_default hstep
  obtain ⟨hc, c, rfl, haccepted, hkept⟩ := Deployment.step_calling hstep
  refine h.move hcommand (h.connected hcommand hc) hl' ?_
  cases command with
  | tntpubSend topic' stdin => exact hworks.elim
  | tntpubRead byPrefix regex topics' =>
    have hreceiving : Receiving _ topics' p (s.deployment.clients i) := hworks
    exact hreceiving.subscribed htopics haccepted hkept

theorem Working.read {p : TntPubRead} {size : Nat} (h : Working rx commands s)
    (htool : s.tools i = some (.tntpubRead p))
    (hstep : s.deployment.step rx .default (.clientInput i size .more) = some d) :
    Working rx commands (({ s with deployment := d } : Shell).setTool i (.tntpubRead { p with
      reads := p.reads ++ [{ bytes := (s.deployment.toClient i).take size }]
      stdout := p.stdout ++
        printed (s.deployment.arrivals i (.clientInput i size .more)) })) := by
  obtain ⟨command, hcommand, hworks⟩ := h.command_of_tool htool
  obtain ⟨log, hl⟩ := h.linked
  obtain ⟨more, hl'⟩ := hl.step encodable_default hstep
  obtain ⟨-, hmap⟩ := Option.ite_none_right_eq_some.mp hstep
  obtain ⟨c, hinput, rfl⟩ := Option.map_eq_some_iff.mp hmap
  obtain ⟨⟨hc, hreading⟩, rfl⟩ := Client.step_cases hinput
  obtain ⟨herr, hrest⟩ := hl.takesAll size encodable_default hc hreading
  refine h.move hcommand (h.connected hcommand hc) hl' ?_
  cases command with
  | tntpubSend topic stdin => exact hworks.elim
  | tntpubRead byPrefix regex topics =>
    have hreceiving : Receiving _ topics p (s.deployment.clients i) := hworks
    have hread := hreceiving.read hc herr hrest
    simp only [Deployment.arrivals, if_true]
    exact hread

/-- A client that is closed keeps what it has sent and received. -/
theorem Working.disconnect {tool' : Tool} (h : Working rx commands s)
    (htool : s.tools i = some tool) (hdisconnect : s.disconnect rx i = some s')
    (hend : ∀ (command : Command) (c : Client), command.Works tool (s.deployment.clients i) →
      (s.deployment.clients i).connected = true →
      c.accepted = (s.deployment.clients i).accepted →
      c.exchange.dispatched = (s.deployment.clients i).exchange.dispatched →
      c.connected = false → command.Works tool' c) :
    Working rx commands (s'.setTool i tool') := by
  obtain ⟨command, hcommand, hworks⟩ := h.command_of_tool htool
  obtain ⟨log, hl⟩ := h.linked
  obtain ⟨hc, d, hstep, rfl⟩ := disconnect_eq hdisconnect
  obtain ⟨more, hl'⟩ := hl.step encodable_default hstep
  obtain ⟨c, hclose, rfl⟩ := Deployment.step_client hstep
  have hclosed : c = (s.deployment.clients i).closePeer 0 := Client.step_cases hclose
  refine h.move hcommand (h.connected hcommand hc) hl' (hend command c hworks hc ?_ ?_ ?_)
  · rw [hclosed]
    rfl
  · rw [hclosed]
    rfl
  · rw [hclosed]
    rfl

theorem setTool_same (htool : s.tools i = some tool) : s.setTool i tool = s := by
  unfold setTool
  rw [← htool, Function.update_eq_self]

theorem Working.step {e : ShellEvent} (h : Working rx commands s)
    (hstep : s.step rx e = some s') : Working rx commands s' := by
  cases e with
  | start i =>
    obtain ⟨htool, hmap⟩ := Option.ite_none_right_eq_some.mp hstep
    obtain ⟨d, hd, rfl⟩ := Option.map_eq_some_iff.mp hmap
    exact h.start htool hd
  | line i o counts throws =>
    simp only [Shell.step] at hstep
    split at hstep
    next topic stdin htool =>
      split at hstep
      next => cases hstep
      next msg rest hline =>
        obtain ⟨d, hd, rfl⟩ := Option.map_eq_some_iff.mp hstep
        exact h.line htool hline hd
    next => cases hstep
  | subscribe i o counts throws =>
    simp only [Shell.step] at hstep
    split at hstep
    next p htool =>
      split at hstep
      next => cases hstep
      next topic topics htopics =>
        obtain ⟨d, hd, rfl⟩ := Option.map_eq_some_iff.mp hstep
        exact h.subscribe htool htopics hd
    next => cases hstep
  | read i size eofInRead eofInBegin =>
    simp only [Shell.step] at hstep
    split at hstep
    next p htool =>
      obtain ⟨-, hstep⟩ := Option.ite_none_right_eq_some.mp hstep
      split at hstep
      next heof =>
        obtain ⟨t, ht, rfl⟩ := Option.map_eq_some_iff.mp hstep
        refine h.disconnect htool ht fun command c hworks hc haccepted hdispatched hoff => ?_
        cases command with
        | tntpubSend topic stdin => exact hworks.elim
        | tntpubRead byPrefix regex topics =>
          have hreceiving : Receiving _ topics p (s.deployment.clients i) := hworks
          exact hreceiving.ended hc heof haccepted hdispatched hoff
      next heof =>
        obtain ⟨d, hd, rfl⟩ := Option.map_eq_some_iff.mp hstep
        have hnone : eofInRead = false ∧ eofInBegin = false := by simpa using heof
        obtain ⟨rfl, rfl⟩ := hnone
        exact h.read htool hd
    next => cases hstep
  | quit i =>
    obtain ⟨hsome, hstep⟩ := Option.ite_none_right_eq_some.mp hstep
    obtain ⟨tool, htool⟩ := Option.isSome_iff_exists.mp hsome
    have hworking := h.disconnect htool hstep
      fun command c hworks _ haccepted hdispatched hoff =>
        works_closed hworks haccepted hdispatched hoff
    obtain ⟨-, d, -, rfl⟩ := disconnect_eq hstep
    have hsame : ({ s with deployment := d } : Shell).setTool i tool =
        { s with deployment := d } := setTool_same htool
    rw [hsame] at hworking
    exact hworking
  | other e =>
    obtain ⟨he, hmap⟩ := Option.ite_none_right_eq_some.mp hstep
    obtain ⟨d, hd, rfl⟩ := Option.map_eq_some_iff.mp hmap
    exact h.other he hd

theorem working_run {maxOBuf : Nat} {es : List ShellEvent}
    (h : Runs.run (Shell.step rx) (Shell.start maxOBuf commands) es = some s) :
    Working rx commands s :=
  Runs.invariant (fun _ _ _ h hstep => h.step hstep) (working_start rx maxOBuf commands) h

end Shell

end TntPub
