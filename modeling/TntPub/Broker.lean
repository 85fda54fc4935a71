import TntPub.Broadcast
import TntPub.Runs
import Mathlib.Logic.Function.Basic

/-! Brokers: members come and go, say what they want, and are handed what is published. -/

namespace Brokers

open Broadcast

/-- What a broker does with what it takes: it may change the interest of the member it comes
from, and may publish something, depending on a state that all share. -/
structure Rules (ι α σ κ : Type*) where
  newcomer : σ
  change : α → σ → σ
  publish : κ → Option ι → α → κ × Option α
  wants : σ → α → Bool

inductive Action (ι α : Type*)
  | arrive (i : ι)
  | depart (i : ι)
  | take (i : ι) (a : α)
  | announce (a : α)

/-- A broker with its history: who was ever there, what was taken from whom, what was published,
and what each member was handed. -/
structure Broker (ι α σ κ : Type*) where
  common : κ
  members : ι → Option σ := fun _ => none
  arrived : List ι := []
  taken : List (Option ι × α) := []
  published : List α := []
  inbox : ι → List α := fun _ => []

section Model

variable {ι α σ κ : Type*} [DecidableEq ι]

namespace Broker

/-- Something is taken, and what becomes of it handed to everybody who wants it. -/
def record (rules : Rules ι α σ κ) (source : Option ι) (a : α) (b : Broker ι α σ κ) :
    Broker ι α σ κ :=
  let (common, given) := rules.publish b.common source a
  { b with
    common := common
    taken := b.taken ++ [(source, a)]
    published := b.published ++ given.toList
    inbox := fun i =>
      b.inbox i ++ given.toList.filter fun k => (b.members i).any (rules.wants · k) }

end Broker

/-- Nobody arrives twice, and only a member departs or hands something in. -/
def step (rules : Rules ι α σ κ) (b : Broker ι α σ κ) : Action ι α → Option (Broker ι α σ κ)
  | .arrive i =>
    if i ∈ b.arrived then none
    else some { b with
      members := Function.update b.members i (some rules.newcomer)
      arrived := b.arrived ++ [i] }
  | .depart i =>
    match b.members i with
    | none => none
    | some _ => some { b with members := Function.update b.members i none }
  | .take i a =>
    match b.members i with
    | none => none
    | some interest => some { b.record rules (some i) a with
        members := Function.update b.members i (some (rules.change a interest)) }
  | .announce a => some (b.record rules none a)

variable {rules : Rules ι α σ κ} {b b' : Broker ι α σ κ} {i : ι} {a : α}

theorem step_arrive (hi : i ∉ b.arrived) :
    step rules b (.arrive i) = some { b with
      members := Function.update b.members i (some rules.newcomer)
      arrived := b.arrived ++ [i] } := if_neg hi

theorem step_depart {interest : σ} (hi : b.members i = some interest) :
    step rules b (.depart i) = some { b with members := Function.update b.members i none } := by
  simp only [step, hi]

theorem step_take {interest : σ} (hi : b.members i = some interest) (a : α) :
    step rules b (.take i a) = some { b.record rules (some i) a with
      members := Function.update b.members i (some (rules.change a interest)) } := by
  simp only [step, hi]

/-- Members that leave one after the other. -/
theorem run_departs (rules : Rules ι α σ κ) {gone : List ι} (hnodup : gone.Nodup)
    (hmembers : ∀ j ∈ gone, (b.members j).isSome = true) :
    Runs.run (step rules) b (gone.map .depart) =
      some { b with members := fun j => if j ∈ gone then none else b.members j } := by
  induction gone generalizing b with
  | nil => simp
  | cons i gone ih =>
    obtain ⟨hi, hnodup⟩ := List.nodup_cons.mp hnodup
    obtain ⟨interest, hinterest⟩ :=
      Option.isSome_iff_exists.mp (hmembers i List.mem_cons_self)
    have hrest : ∀ j ∈ gone,
        (({ b with members := Function.update b.members i none } :
          Broker ι α σ κ).members j).isSome = true := by
      intro j hj
      have hne : j ≠ i := fun heq => hi (heq ▸ hj)
      simp only [Function.update_of_ne hne]
      exact hmembers j (List.mem_cons_of_mem i hj)
    rw [List.map_cons]
    refine Runs.run_cons.mpr ⟨_, step_depart hinterest, ?_⟩
    rw [ih hnodup hrest]
    congr 2
    funext j
    by_cases hj : j = i
    · subst hj
      simp
    · simp [hj]

/-- Who is there has arrived, nothing was taken from anybody else, and what a member wants
follows from what it has handed in, whatever the others do. -/
structure Sound (rules : Rules ι α σ κ) (b : Broker ι α σ κ) : Prop where
  members : ∀ i, (b.members i).isSome = true → i ∈ b.arrived
  strangers : ∀ i, i ∉ b.arrived → contribution b.taken (some i) = []
  interest : ∀ i interest, b.members i = some interest →
    interest = (contribution b.taken (some i)).foldl (fun s a => rules.change a s) rules.newcomer

theorem sound_new (rules : Rules ι α σ κ) (common : κ) : Sound rules { common := common } where
  members := nofun
  strangers _ _ := rfl
  interest := nofun

theorem Sound.member (h : Sound rules b) {interest : σ} (hi : b.members i = some interest) :
    i ∈ b.arrived := h.members i (by rw [hi]; rfl)

theorem record_taken (source : Option ι) (a : α) (j : ι) :
    contribution (b.record rules source a).taken (some j) =
      contribution b.taken (some j) ++ if source = some j then [a] else [] := by
  show contribution (b.taken ++ [(source, a)]) (some j) = _
  rw [contribution_append, contribution_cons, contribution_nil]

theorem Sound.arrive (h : Sound rules b) (hi : i ∉ b.arrived) :
    Sound rules { b with
      members := Function.update b.members i (some rules.newcomer)
      arrived := b.arrived ++ [i] } where
  members j hj := by
    by_cases hji : j = i
    · exact List.mem_append_right _ (List.mem_singleton.mpr hji)
    · simp only [Function.update_of_ne hji] at hj
      exact List.mem_append_left _ (h.members j hj)
  strangers j hj := h.strangers j fun hmem => hj (List.mem_append_left _ hmem)
  interest j interest hj := by
    by_cases hji : j = i
    · subst hji
      simp only [Function.update_self] at hj
      rw [h.strangers j hi]
      exact (Option.some.inj hj).symm
    · simp only [Function.update_of_ne hji] at hj
      exact h.interest j interest hj

theorem Sound.depart (h : Sound rules b) (i : ι) :
    Sound rules { b with members := Function.update b.members i none } where
  members j hj := by
    by_cases hji : j = i
    · subst hji
      simp at hj
    · simp only [Function.update_of_ne hji] at hj
      exact h.members j hj
  strangers := h.strangers
  interest j interest hj := by
    by_cases hji : j = i
    · subst hji
      simp at hj
    · simp only [Function.update_of_ne hji] at hj
      exact h.interest j interest hj

theorem Sound.take (h : Sound rules b) {interest : σ} (hi : b.members i = some interest) (a : α) :
    Sound rules { b.record rules (some i) a with
      members := Function.update b.members i (some (rules.change a interest)) } where
  members j hj := by
    by_cases hji : j = i
    · subst hji
      exact h.member hi
    · simp only [Function.update_of_ne hji] at hj
      exact h.members j hj
  strangers j hj := by
    have hji : some i ≠ some j := by
      intro heq
      exact hj (Option.some.inj heq ▸ h.member hi)
    show contribution (b.record rules (some i) a).taken (some j) = []
    rw [record_taken, if_neg hji, List.append_nil]
    exact h.strangers j hj
  interest j new hj := by
    show new = (contribution (b.record rules (some i) a).taken (some j)).foldl _ _
    rw [record_taken]
    by_cases hji : j = i
    · subst hji
      simp only [Function.update_self] at hj
      rw [if_pos rfl, List.foldl_append, ← h.interest j interest hi]
      exact (Option.some.inj hj).symm
    · simp only [Function.update_of_ne hji] at hj
      rw [if_neg (by simpa using Ne.symm hji), List.append_nil]
      exact h.interest j new hj

theorem Sound.announce (h : Sound rules b) (a : α) : Sound rules (b.record rules none a) where
  members := h.members
  strangers j hj := by
    rw [record_taken, if_neg nofun, List.append_nil]
    exact h.strangers j hj
  interest j interest hj := by
    rw [record_taken, if_neg nofun, List.append_nil]
    exact h.interest j interest hj

theorem Sound.step {action : Action ι α} (h : Sound rules b)
    (hstep : step rules b action = some b') : Sound rules b' := by
  cases action with
  | arrive i =>
    simp only [Brokers.step] at hstep
    split at hstep
    next => cases hstep
    next hi => exact Option.some.inj hstep ▸ h.arrive hi
  | depart i =>
    simp only [Brokers.step] at hstep
    split at hstep
    next => cases hstep
    next => exact Option.some.inj hstep ▸ h.depart i
  | take i a =>
    simp only [Brokers.step] at hstep
    split at hstep
    next => cases hstep
    next interest hi => exact Option.some.inj hstep ▸ h.take hi a
  | announce a => exact Option.some.inj hstep ▸ h.announce a

theorem Sound.run {history : List (Action ι α)} (h : Sound rules b)
    (hrun : Runs.run (Brokers.step rules) b history = some b') : Sound rules b' :=
  Runs.invariant (fun _ _ _ hsound hstep => hsound.step hstep) h hrun

/-- What a member is given was wanted by an interest of its. -/
structure Wanted (rules : Rules ι α σ κ) (i : ι) (P : σ → Prop) (b : Broker ι α σ κ) : Prop where
  interest : ∀ interest, b.members i = some interest → P interest
  inbox : ∀ a ∈ b.inbox i, ∃ interest, P interest ∧ rules.wants interest a = true

omit [DecidableEq ι] in
theorem Wanted.record {P : σ → Prop} (h : Wanted rules i P b) (source : Option ι) (a : α) :
    ∀ k ∈ (b.record rules source a).inbox i, ∃ interest,
      P interest ∧ rules.wants interest k = true := by
  intro k hk
  have hinbox : (b.record rules source a).inbox i = b.inbox i ++
      (rules.publish b.common source a).2.toList.filter fun k =>
        (b.members i).any (rules.wants · k) := rfl
  rw [hinbox] at hk
  rcases List.mem_append.mp hk with hk | hk
  · exact h.inbox k hk
  · have hany := (List.mem_filter.mp hk).2
    cases hmember : b.members i with
    | none =>
      rw [hmember] at hany
      cases hany
    | some interest =>
      rw [hmember] at hany
      exact ⟨interest, h.interest interest hmember, hany⟩

/-- A change of interest that a member has asked for is the only one. -/
theorem Wanted.step {P : σ → Prop} {action : Action ι α} (h : Wanted rules i P b)
    (hnew : P rules.newcomer)
    (hchange : ∀ a, contribution b'.taken (some i) = contribution b.taken (some i) ++ [a] →
      ∀ interest, P interest → P (rules.change a interest))
    (hstep : step rules b action = some b') : Wanted rules i P b' := by
  cases action with
  | arrive j =>
    simp only [Brokers.step] at hstep
    split at hstep
    next => cases hstep
    next =>
      obtain rfl := Option.some.inj hstep
      refine ⟨fun interest hi => ?_, h.inbox⟩
      by_cases hij : i = j
      · subst hij
        simp only [Function.update_self] at hi
        exact Option.some.inj hi ▸ hnew
      · simp only [Function.update_of_ne hij] at hi
        exact h.interest interest hi
  | depart j =>
    simp only [Brokers.step] at hstep
    split at hstep
    next => cases hstep
    next =>
      obtain rfl := Option.some.inj hstep
      refine ⟨fun interest hi => ?_, h.inbox⟩
      by_cases hij : i = j
      · subst hij
        simp at hi
      · simp only [Function.update_of_ne hij] at hi
        exact h.interest interest hi
  | take j a =>
    simp only [Brokers.step] at hstep
    split at hstep
    next => cases hstep
    next before hj =>
      obtain rfl := Option.some.inj hstep
      refine ⟨fun interest hi => ?_, h.record (some j) a⟩
      by_cases hij : i = j
      · subst hij
        simp only [Function.update_self] at hi
        have htaken : contribution (b.record rules (some i) a).taken (some i) = _ :=
          record_taken (some i) a i
        rw [if_pos rfl] at htaken
        exact Option.some.inj hi ▸ hchange a htaken before (h.interest before hj)
      · simp only [Function.update_of_ne hij] at hi
        exact h.interest interest hi
  | announce a =>
    obtain rfl := Option.some.inj hstep
    exact ⟨h.interest, h.record none a⟩

theorem taken_prefix {action : Action ι α} (hstep : step rules b action = some b') :
    b.taken <+: b'.taken := by
  cases action with
  | arrive j =>
    simp only [Brokers.step] at hstep
    split at hstep
    next => cases hstep
    next => exact Option.some.inj hstep ▸ List.prefix_rfl
  | depart j =>
    simp only [Brokers.step] at hstep
    split at hstep
    next => cases hstep
    next => exact Option.some.inj hstep ▸ List.prefix_rfl
  | take j a =>
    simp only [Brokers.step] at hstep
    split at hstep
    next => cases hstep
    next => exact Option.some.inj hstep ▸ List.prefix_append _ _
  | announce a => exact Option.some.inj hstep ▸ List.prefix_append _ _

/-- Where everything a member hands in keeps a property of its interest, it is given only what
such an interest wants. -/
theorem wanted_run {P : σ → Prop} {common : κ} {history : List (Action ι α)}
    (hnew : P rules.newcomer)
    (hrun : Runs.run (step rules) { common := common } history = some b)
    (hkeeps : ∀ a ∈ contribution b.taken (some i), ∀ interest, P interest →
      P (rules.change a interest)) : Wanted rules i P b := by
  have keep (c : Broker ι α σ κ) (action : Action ι α) (c' : Broker ι α σ κ)
      (hc : (∀ a ∈ contribution c.taken (some i), ∀ interest, P interest →
        P (rules.change a interest)) → Wanted rules i P c)
      (hstep : step rules c action = some c') :
      (∀ a ∈ contribution c'.taken (some i), ∀ interest, P interest →
        P (rules.change a interest)) → Wanted rules i P c' := by
    intro hall
    obtain ⟨more, hmore⟩ := taken_prefix hstep
    rw [← hmore, contribution_append] at hall
    refine (hc fun a ha => hall a (List.mem_append_left _ ha)).step hnew (fun a ha => ?_) hstep
    rw [← hmore, contribution_append, List.append_cancel_left_eq] at ha
    exact hall a (List.mem_append_right _ (ha ▸ List.mem_singleton.mpr rfl))
  have hstart : Wanted rules i P { common := common } :=
    ⟨fun _ h => (Option.some_ne_none _ h.symm).elim, fun _ h => (List.not_mem_nil h).elim⟩
  exact Runs.invariant keep (fun _ => hstart) hrun hkeeps

end Model

end Brokers
