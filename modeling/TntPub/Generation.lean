import TntPub.Accounts

namespace TntPub

namespace PubGen

variable {topic data : Bytes} {num bulk : UInt32} {g g' : PubGen} {c : Client}

/-- Some bytes are written, or a write of none ends. -/
def moves (g : PubGen) : PubGenEvent → Bool
  | .output count _ => decide (0 < count) || g.client.outputBuffer.isEmpty
  | _ => false

/-- What is left to send, and what is left to write of it. -/
def ahead (g : PubGen) : ℕ ×ₗ ℕ := toLex (g.num.toNat, g.client.unsent)

theorem send_fields (g : PubGen) (origins : Nat → Origin) :
    ((g.send origins).1 = [] ∧ (g.send origins).2.num = g.num ∧
        ∃ sent writes, .finished sent writes ∈ (g.send origins).2.printed) ∨
      (g.send origins).2.num.toNat < g.num.toNat ∧
        (g.send origins).2.running = g.running := by
  rcases send_cases g origins with ⟨-, -, hsend⟩ | ⟨count, hpos, hle, -, hsend, -⟩
  · rw [hsend]
    exact .inl ⟨rfl, rfl, g.totalCount, g.countBulk,
      List.mem_append.mpr (.inr (List.mem_singleton.mpr rfl))⟩
  · rw [hsend]
    right
    refine ⟨?_, rfl⟩
    show (g.num - count).toNat < g.num.toNat
    rw [UInt32.toNat_sub_of_le _ _ (UInt32.le_iff_toNat_le.mpr hle)]
    omega

/-- `pubGen` is connected and still sends, or has said that it is done. -/
structure Underway (topic data : Bytes) (num bulk : UInt32) (g : PubGen) : Prop
    extends Accounts topic data num bulk 0 g where
  connected : g.client.connected = true
  goesOn : g.running = true ∨ ∃ sent writes, .finished sent writes ∈ g.printed

theorem Underway.moves {e : PubGenEvent} (h : g.Underway topic data num bulk)
    (hmoves : g.moves e = true) (hstep : g.step e = some g') :
    g'.Underway topic data num bulk ∧ g'.ahead < g.ahead := by
  cases e with
  | output count origins =>
    obtain ⟨hguard, houtput⟩ := Option.ite_none_right_eq_some.mp hstep
    obtain ⟨hrunning, hc⟩ := Bool.and_eq_true_iff.mp hguard
    obtain ⟨c, hd⟩ := onOutput_client houtput
    obtain ⟨t, ht, haccounts, hsent⟩ := h.onOutput origins hc hrunning hd
    obtain rfl := Option.some.inj (ht.symm.trans houtput)
    have hconnected := (Client.onOutput_input hd).connected.trans hc
    have hunsent : c.unsent < g.client.unsent :=
      Client.unsent_onOutput (h.buffered hc).region (by simpa [PubGen.moves] using hmoves) hd
    rw [ahead, ahead, Prod.Lex.toLex_lt_toLex]
    rcases hsent with ⟨c', hcalls, rfl⟩ | rfl
    · have hconnected' := (Client.calls_input hcalls).connected.trans hconnected
      rcases send_fields g.countBulkSent origins with ⟨hnone, hnum, hfinished⟩ | ⟨hnum, hruns⟩
      · have hsame : c' = c := by
          have hcalls' : c.calls (g.countBulkSent.send origins).1 = some c' := hcalls
          rw [hnone] at hcalls'
          exact (Option.some.inj hcalls').symm
        exact ⟨⟨haccounts, hconnected', .inr hfinished⟩,
          .inr ⟨congrArg UInt32.toNat hnum, hsame ▸ hunsent⟩⟩
      · exact ⟨⟨haccounts, hconnected', .inl (hruns.trans hrunning)⟩, .inl hnum⟩
    · exact ⟨⟨haccounts, hconnected, .inl hrunning⟩, .inr ⟨rfl, hunsent⟩⟩
  | connected origins => cases hmoves
  | connectedThrows origins => cases hmoves
  | outputThrows count origins => cases hmoves
  | timeout => cases hmoves
  | closed => cases hmoves
  | ended => cases hmoves
  | other e => cases hmoves

/-- What leaves the output of the client as it is: timeouts, and input that is not malformed. -/
def isQuiet (g : PubGen) : PubGenEvent → Bool
  | .timeout => true
  | .other (.input bytes .more) => (g.client.deserializer.takesAll bytes).error.isNone
  | _ => false

theorem Underway.quiet {e : PubGenEvent} (h : g.Underway topic data num bulk)
    (hquiet : g.isQuiet e = true) (hstep : g.step e = some g') :
    g'.Underway topic data num bulk ∧ g'.ahead = g.ahead := by
  have hthrows : e.throws = false := by
    cases e with
    | connectedThrows origins => cases hquiet
    | outputThrows count origins => cases hquiet
    | _ => rfl
  have haccounts := h.toAccounts.step hthrows hstep
  cases e with
  | timeout =>
    obtain ⟨hrunning, hg'⟩ := Option.ite_none_right_eq_some.mp hstep
    obtain rfl := Option.some.inj hg'
    obtain ⟨hclient, hnum, hrun⟩ := onTimeout_same g
    refine ⟨⟨haccounts, ?_, .inl (hrun.trans hrunning)⟩, ?_⟩
    · rw [hclient]
      exact h.connected
    · rw [ahead, ahead, hclient, hnum]
  | other e =>
    cases e with
    | input bytes ending =>
      cases ending with
      | more =>
        obtain ⟨hguard, hmap⟩ := Option.ite_none_right_eq_some.mp hstep
        obtain ⟨hrunning, -⟩ := Bool.and_eq_true_iff.mp hguard
        obtain ⟨c, hc, rfl⟩ := Option.map_eq_some_iff.mp hmap
        obtain ⟨-, rfl⟩ := Client.step_cases hc
        have hgoesOn : g.client.aftermath (.input bytes .more) = .goesOn := by
          have hnone : (g.client.deserializer.takesAll bytes).error.isNone = true := hquiet
          rw [Client.aftermath, Option.isNone_iff_eq_none.mp hnone]
          rfl
        rw [hgoesOn] at haccounts ⊢
        obtain ⟨d, hsame, hd | ⟨unreported, hfailed, -⟩⟩ :=
          Client.onInput_output g.client bytes .more
        · rw [hd] at haccounts ⊢
          refine ⟨⟨haccounts, hsame.connected.trans h.connected, .inl hrunning⟩, ?_⟩
          simp only [PubGen.after, ahead, Client.unsent, hsame.outputBuffer,
            hsame.outputBufferNext, hsame.pending]
        · cases hfailed
      | eof => cases hquiet
      | failed unreported => cases hquiet
    | _ => cases hquiet
  | _ => cases hquiet

/-- While it runs and is connected, `pubGen` has something to write. -/
theorem Underway.not_still (h : g.Underway topic data num bulk) (hrunning : g.running = true) :
    ∃ e, g.moves e = true ∧ g.step e ≠ none := by
  obtain ⟨-, hsome, -⟩ := h.busy h.connected hrunning
  obtain ⟨region, hpending⟩ := Option.isSome_iff_exists.mp hsome
  obtain ⟨c, hd⟩ := Client.onOutput_whole hpending
  obtain ⟨g', hg', -⟩ := h.onOutput (fun _ => ⟨[], 0, 0⟩) h.connected hrunning hd
  refine ⟨.output region.length fun _ => ⟨[], 0, 0⟩, ?_, ?_⟩
  · have hregion := (h.buffered h.connected).region region hpending
    simp only [PubGen.moves, Bool.or_eq_true, decide_eq_true_eq, List.isEmpty_iff, ← hregion]
    exact (Nat.eq_zero_or_pos region.length).symm.imp_right List.eq_nil_of_length_eq_zero
  · rw [PubGen.step, hrunning, h.connected]
    simp [hg']

/-- The total printed at the end is the number of messages to send, or 0 if these are sent in
bulks of none. -/
theorem Accounts.sent {broken : Nat} (h : g.Accounts topic data num bulk broken)
    {sent writes : UInt32} (hprinted : .finished sent writes ∈ g.printed) :
    sent = (if bulk = 0 then 0 else num) ∧ sent.toNat = g.client.accepted.length ∧
      g.client.exchange.output = frames g.client.accepted := by
  obtain ⟨-, rfl, hzero, hnothing, hunbroken, hwhole⟩ := h.finished sent writes hprinted
  have htotal := h.total
  have hleft := h.left
  rw [hnothing, UInt32.toNat_zero, if_pos hunbroken] at htotal
  rw [hnothing, UInt32.toNat_zero, hunbroken] at hleft
  refine ⟨UInt32.toNat_inj.mp ?_, htotal.symm, hwhole⟩
  split
  next hbulk =>
    rw [h.silent hbulk, List.length_nil] at htotal
    show g.totalCount.toNat = 0
    omega
  next hbulk =>
    rw [h.sameBulk] at hzero
    rw [hzero.resolve_right hbulk, UInt32.toNat_zero] at hleft
    omega

def noOrigin (_ : Nat) : Origin := ⟨[], 0, 0⟩

/-- Three messages in bulks of two, the first of them cut by a partial write. -/
def threeSent : List PubGenEvent :=
  [.connected noOrigin, .output 20 noOrigin, .timeout, .output 64 noOrigin, .timeout,
    .output 42 noOrigin]

/-- The second bulk is broken off, and the timer goes on. -/
example : ∃ g, Runs.run step (create [0x61] 5 2 1)
      [.connected noOrigin, .output 42 noOrigin, .outputThrows 42 noOrigin, .timeout] = some g ∧
    g.printed = [.second 2 2 1] ∧ g.num = 1 ∧ g.client.accepted.length = 3 ∧
    g.running = true := by
  decide +kernel

/-- A connected `pubGen` that runs cannot write for ever, whatever timeouts and well-formed input
come in between, it can write until it is done, and where it cannot write on it has written all
messages and said so. -/
theorem comes_to_its_end (topic : Bytes) (num bulk size : UInt32) (es : List PubGenEvent)
    (g : PubGen) (hrun : Runs.run step (create topic num bulk size) es = some g)
    (hc : g.client.connected = true) (hrunning : g.running = true) :
    (¬ ∃ f : ℕ → PubGen, f 0 = g ∧
      (∀ n, ∃ e, ((f n).moves e = true ∨ (f n).isQuiet e = true) ∧
        (f n).step e = some (f (n + 1))) ∧
      ∀ n, ∃ m e, n ≤ m ∧ (f m).moves e = true ∧ (f m).step e = some (f (m + 1))) ∧
    (∃ later g', Runs.run step g later = some g' ∧
      Runs.Meets step (fun t e => t.moves e = true) g later ∧
      ∀ e, g'.moves e = true → g'.step e = none) ∧
    ∀ later g', Runs.run step g later = some g' →
      Runs.Meets step (fun t e => t.moves e = true ∨ t.isQuiet e = true) g later →
      (∀ e, g'.moves e = true → g'.step e = none) →
      g'.running = false ∧ (∃ writes, .finished num writes ∈ g'.printed) ∧
        g'.client.accepted.length = num.toNat ∧
        g'.client.exchange.output = frames g'.client.accepted := by
  obtain ⟨broken, haccounts, -⟩ := accounts_run hrun
  have hbulk : bulk ≠ 0 := by
    obtain ⟨-, -, hpos⟩ := haccounts.busy hc hrunning
    rintro rfl
    rw [haccounts.sameBulk] at hpos
    exact Nat.lt_irrefl 0 hpos
  have hstart : g.Underway topic (create topic num bulk size).data num bulk :=
    ⟨haccounts.whole hc ▸ haccounts, hc, .inl hrunning⟩
  have hmoves (t : PubGen) (e : PubGenEvent) (t' : PubGen)
      (ht : t.Underway topic (create topic num bulk size).data num bulk)
      (hm : t.moves e = true) (hstep : t.step e = some t') := ht.moves hm hstep
  have hquiet (t : PubGen) (e : PubGenEvent) (t' : PubGen)
      (ht : t.Underway topic (create topic num bulk size).data num bulk)
      (hq : t.isQuiet e = true) (hstep : t.step e = some t') := ht.quiet hq hstep
  refine ⟨?_, Runs.exists_maximal_run _ ahead hmoves hstart,
    fun later g' hlater hmeets hstill => ?_⟩
  · refine Runs.finitely_often _ ahead (Q := fun t e => t.isQuiet e = true) hmoves ?_ hstart
    intro t e t' ht hq hstep
    obtain ⟨ht', hsame⟩ := hquiet t e t' ht hq hstep
    exact ⟨ht', hsame.le⟩
  · have hend : g'.Underway topic (create topic num bulk size).data num bulk := by
      refine Runs.invariant_of_meets _ (fun t e t' hevent ht hstep => ?_) hstart hmeets hlater
      rcases hevent with hm | hq
      · exact (hmoves t e t' ht hm hstep).1
      · exact (hquiet t e t' ht hq hstep).1
    have hdone : g'.running = false := by
      by_contra hon
      obtain ⟨e, hm, hstep⟩ := hend.not_still (by simpa using hon)
      exact hstep (hstill e hm)
    obtain ⟨sent, writes, hprinted⟩ := hend.goesOn.resolve_left (by simp [hdone])
    obtain ⟨hsent, hlength, hwhole⟩ := hend.sent hprinted
    rw [if_neg hbulk] at hsent
    subst hsent
    exact ⟨hdone, ⟨writes, hprinted⟩, hlength.symm, hwhole⟩

theorem comes_to_its_end_threeSent :
    ∃ g, Runs.run step (create [0x61] 3 2 1) (threeSent.take 2) = some g ∧
      ∃ later g', Runs.run step g later = some g' ∧ g'.running = false ∧
        (∃ writes, .finished 3 writes ∈ g'.printed) ∧ g'.client.accepted.length = 3 := by
  have hrun : ∃ g, Runs.run step (create [0x61] 3 2 1) (threeSent.take 2) = some g ∧
      g.client.connected = true ∧ g.running = true := by
    decide +kernel
  obtain ⟨g, hg, hc, hrunning⟩ := hrun
  obtain ⟨-, ⟨later, g', hlater, hmoves, hstill⟩, hall⟩ :=
    comes_to_its_end [0x61] 3 2 1 (threeSent.take 2) g hg hc hrunning
  obtain ⟨hdone, hfinished, hlength, -⟩ :=
    hall later g' hlater (hmoves.mono fun _ _ h => .inl h) hstill
  exact ⟨g, hg, later, g', hlater, hdone, hfinished, hlength⟩

end PubGen

end TntPub
