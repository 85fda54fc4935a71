import TntPub.CommonOrder

namespace TntPub

open Framing Broadcast

namespace Log

/-- The number of messages that are given a serial number. -/
def dataCount : Log → Nat
  | [] => 0
  | (none, _) :: log => dataCount log
  | (some _, m) :: log => if m.isDataMessage then dataCount log + 1 else dataCount log

variable {hook : Hook} {serial : UInt64} {log : Log}

/-- The serial numbers go up, and none of them is given twice. -/
theorem published_serials (hserial : ∀ id m k, hook id m = some k → k.serial = m.serial)
    (hown : contribution log none = []) (hcount : serial.toNat + log.dataCount < 2 ^ 64) :
    (∀ m ∈ log.published hook serial, serial.toNat < m.serial.toNat ∧
      m.serial.toNat ≤ serial.toNat + log.dataCount) ∧
      (log.published hook serial).Pairwise fun m k => m.serial < k.serial := by
  induction log generalizing serial with
  | nil => exact ⟨nofun, List.Pairwise.nil⟩
  | cons entry log ih =>
    obtain ⟨source, m⟩ := entry
    rw [contribution_cons] at hown
    cases source with
    | none => cases hown
    | some id =>
      simp only [dataCount, published] at hcount ⊢
      split at hcount
      next hm =>
        have hnext : (serial + 1).toNat = serial.toNat + 1 := by
          rw [UInt64.toNat_add, UInt64.toNat_one]
          omega
        have hrest : (serial + 1).toNat + dataCount log < 2 ^ 64 := by omega
        obtain ⟨hbounds, hpairwise⟩ := ih hown hrest
        rw [if_pos hm, if_pos hm]
        cases hk : hook id { m with serial := serial + 1 } with
        | none =>
          refine ⟨fun k hk => ?_, hpairwise⟩
          have hbound := hbounds k hk
          omega
        | some k =>
          have hkserial : k.serial = serial + 1 := hserial id _ k hk
          have hktoNat : k.serial.toNat = serial.toNat + 1 := by rw [hkserial, hnext]
          refine ⟨fun l hl => ?_, List.pairwise_cons.mpr ⟨fun l hl => ?_, hpairwise⟩⟩
          · rcases List.mem_cons.mp hl with rfl | hl
            · omega
            · have hbound := hbounds l hl
              omega
          · rw [UInt64.lt_iff_toNat_lt, hktoNat, ← hnext]
            exact (hbounds l hl).1
      next hm =>
        rw [if_neg hm, if_neg hm]
        exact ih hown hcount

/-- The default hook publishes all of them. -/
theorem dataCount_le (log : Log) (serial : UInt64) :
    log.dataCount ≤ (log.published .default serial).length := by
  induction log generalizing serial with
  | nil => exact Nat.le_refl 0
  | cons entry log ih =>
    obtain ⟨source, m⟩ := entry
    cases source with
    | none =>
      exact (ih serial).trans (Nat.le_succ _)
    | some id =>
      simp only [dataCount, published, Hook.default, Option.toList_some]
      split
      next =>
        have hrest := ih (serial + 1)
        simp only [List.singleton_append, List.length_cons]
        omega
      next => exact ih serial

end Log

namespace Deployment

variable {rx : Regex} {hook : Hook} {d d' : Deployment} {log more : Log} {i j : ResponderId}

theorem Linked.dispatched_sublist (hl : d.Linked rx hook log) (i : ResponderId) :
    ((d.clients i).exchange.dispatched).Sublist (log.published hook 0) := by
  rw [← hl.published.sent]
  exact (hl.channel i).dispatchedFront.sublist.trans (Server.matchedBy_sublist rx d.hub.server i)

theorem Linked.serials (hl : d.Linked rx hook log) (hown : d.hub.own = [])
    (hserial : ∀ id m k, hook id m = some k → k.serial = m.serial)
    (hcount : log.dataCount < 2 ^ 64) :
    (log.published hook 0).Pairwise fun m k => m.serial < k.serial := by
  have hzero : (0 : UInt64).toNat = 0 := rfl
  exact (Log.published_serials hserial (hl.published.own ▸ hown) (by omega)).2

theorem nodup_of_serials {ms : List DataMessage}
    (h : ms.Pairwise fun m k => m.serial < k.serial) : ms.Nodup := by
  refine h.imp fun {m k} hlt heq => ?_
  rw [heq] at hlt
  exact absurd hlt (UInt64.lt_irrefl _)

/-- No client is given a message twice or out of order, and any two clients are given the
messages they have in common in the same order. -/
theorem agreement (rx : Regex) (hook : Hook) (maxOBuf : Nat) (es : List DeploymentEvent)
    (d : Deployment) (hhook : ∀ id m k, m.Encodable → hook id m = some k → k.Encodable)
    (hserial : ∀ id m k, hook id m = some k → k.serial = m.serial)
    (hrun : Runs.run (Deployment.step rx hook) { hub := { server := { maxOBuf := maxOBuf } } } es =
      some d) (hown : d.hub.own = []) :
    ∃ log : Log, d.hub.server.sent = log.published hook 0 ∧
      (∀ i, contribution log (some i) <+: (d.clients i).accepted) ∧
      (log.dataCount < 2 ^ 64 →
        (∀ i, ((d.clients i).exchange.dispatched).Pairwise fun m k => m.serial < k.serial) ∧
        ∀ i j, (d.clients i).exchange.dispatched.filter (· ∈ (d.clients j).exchange.dispatched) =
          (d.clients j).exchange.dispatched.filter (· ∈ (d.clients i).exchange.dispatched)) := by
  obtain ⟨log, hl⟩ := (linked_new rx hook maxOBuf).run hhook hrun
  rw [List.nil_append] at hl
  refine ⟨log, hl.published.sent, fun i => ?_, fun hcount => ?_⟩
  · rw [← hl.published.handled]
    exact (hl.channel i).handledFront
  · have hpairwise := hl.serials hown hserial hcount
    exact ⟨fun i => hpairwise.sublist (hl.dispatched_sublist i), fun i j =>
      common_order (hl.dispatched_sublist i) (hl.dispatched_sublist j)
        (nodup_of_serials hpairwise)⟩

/-- Whatever a client is told to send once some messages were received, by itself or by others,
is put behind all of these and numbered above them. -/
theorem causal_order (rx : Regex) (hook : Hook) (maxOBuf : Nat) (es later : List DeploymentEvent)
    (d d' : Deployment) (hhook : ∀ id m k, m.Encodable → hook id m = some k → k.Encodable)
    (hserial : ∀ id m k, hook id m = some k → k.serial = m.serial)
    (hrun : Runs.run (Deployment.step rx hook) { hub := { server := { maxOBuf := maxOBuf } } } es =
      some d) (hlater : Runs.run (Deployment.step rx hook) d later = some d')
    (hown : d'.hub.own = []) :
    ∃ log more : Log, d.hub.server.sent = log.published hook 0 ∧
      d'.hub.server.sent = d.hub.server.sent ++ more.published hook (log.serialAfter 0) ∧
      (∀ i, contribution (log ++ more) (some i) <+: (d'.clients i).accepted) ∧
      (∀ i n m, (log ++ more)[n]? = some (some i, m) →
        (d.clients i).accepted.length ≤ (contribution ((log ++ more).take n) (some i)).length →
        log.length ≤ n) ∧
      ((log ++ more).dataCount < 2 ^ 64 → ∀ j, ∀ m ∈ (d.clients j).exchange.dispatched,
        ∀ k ∈ more.published hook (log.serialAfter 0), m.serial < k.serial) := by
  obtain ⟨log, hl⟩ := (linked_new rx hook maxOBuf).run hhook hrun
  rw [List.nil_append] at hl
  obtain ⟨more, hl'⟩ := hl.run hhook hlater
  refine ⟨log, more, hl.published.sent, ?_, fun i => ?_, fun i n m hentry hbefore => ?_,
    fun hcount j m hm k hk => ?_⟩
  · rw [hl'.published.sent, Log.published_append, hl.published.sent]
  · rw [← hl'.published.handled]
    exact (hl'.channel i).handledFront
  · have hfront := (hl.channel i).handledFront.length_le
    rw [hl.published.handled] at hfront
    exact length_le_of_contribution hentry (hfront.trans hbefore)
  · have hpairwise := hl'.serials hown hserial hcount
    rw [Log.published_append] at hpairwise
    exact (List.pairwise_append.mp hpairwise).2.2 m ((hl.dispatched_sublist j).subset hm) k hk

/-- Client 2, which writes and waits, answers the message it has received. -/
def answer : List DeploymentEvent :=
  [.client 2 (.call (.sendMessage .greeting) [43]), .serverInput 2 43 false,
    .server (.output 2 43), .clientInput 2 43 .more]

theorem agreement_answer :
    ∃ d, Runs.run (Deployment.step .literal .default) { hub := { server := { maxOBuf := 100 } } }
        (leavingRun ++ answer) = some d ∧
      (d.clients 0).exchange.dispatched = [{ DataMessage.greeting with serial := 1 }] ∧
      (d.clients 2).exchange.dispatched.map DataMessage.serial = [1, 2] ∧
      (∃ log : Log, d.hub.server.sent = log.published .default 0 ∧
        ∀ i, contribution log (some i) <+: (d.clients i).accepted) ∧
      ((d.clients 2).exchange.dispatched).Pairwise (fun m k => m.serial < k.serial) ∧
      (d.clients 0).exchange.dispatched.filter (· ∈ (d.clients 2).exchange.dispatched) =
        (d.clients 2).exchange.dispatched.filter (· ∈ (d.clients 0).exchange.dispatched) := by
  have hrun : ∃ d, Runs.run (Deployment.step .literal .default)
        { hub := { server := { maxOBuf := 100 } } } (leavingRun ++ answer) = some d ∧
      d.hub.own = [] ∧ d.hub.server.sent.length = 2 ∧
      (d.clients 0).exchange.dispatched = [{ DataMessage.greeting with serial := 1 }] ∧
      (d.clients 2).exchange.dispatched.map DataMessage.serial = [1, 2] := by
    decide +kernel
  obtain ⟨d, hd, hown, htwo, h0, h2⟩ := hrun
  obtain ⟨log, hsent, haccepted, hall⟩ := agreement .literal .default 100 (leavingRun ++ answer) d
    (fun _ _ _ h hk => Option.some.inj hk ▸ h) (fun _ _ _ hk => Option.some.inj hk ▸ rfl) hd hown
  have hcount : log.dataCount ≤ 2 := by
    rw [← htwo, hsent]
    exact log.dataCount_le 0
  obtain ⟨hserials, hcommon⟩ := hall (by omega)
  exact ⟨d, hd, h0, h2, ⟨log, hsent, haccepted⟩, hserials 2, hcommon 0 2⟩

/-- The answer is numbered 2, and what client 2 had received before is numbered 1. -/
theorem causal_order_answer :
    ∃ d d', Runs.run (Deployment.step .literal .default)
        { hub := { server := { maxOBuf := 100 } } } leavingRun = some d ∧
      Runs.run (Deployment.step .literal .default) d answer = some d' ∧
      (d.clients 2).exchange.dispatched.map DataMessage.serial = [1] ∧
      d'.hub.server.sent.map DataMessage.serial = [1, 2] ∧
      ∃ log more : Log, d.hub.server.sent = log.published .default 0 ∧
        d'.hub.server.sent =
          d.hub.server.sent ++ more.published .default (log.serialAfter 0) ∧
        (∀ n m, (log ++ more)[n]? = some (some 2, m) →
          1 ≤ (contribution ((log ++ more).take n) (some 2)).length → log.length ≤ n) ∧
        ∀ m ∈ (d.clients 2).exchange.dispatched,
          ∀ k ∈ more.published .default (log.serialAfter 0), m.serial < k.serial := by
  have hrun : ∃ d, Runs.run (Deployment.step .literal .default)
        { hub := { server := { maxOBuf := 100 } } } leavingRun = some d ∧
      (d.clients 2).accepted.length = 1 ∧
      (d.clients 2).exchange.dispatched.map DataMessage.serial = [1] ∧
      ∃ d', Runs.run (Deployment.step .literal .default) d answer = some d' ∧
        d'.hub.own = [] ∧ d'.hub.server.sent.map DataMessage.serial = [1, 2] := by
    decide +kernel
  obtain ⟨d, hd, hone, hdispatched, d', hd', hown, hserials⟩ := hrun
  obtain ⟨log, more, hsent, hmore, -, hbehind, habove⟩ :=
    causal_order .literal .default 100 leavingRun answer d d'
      (fun _ _ _ h hk => Option.some.inj hk ▸ h) (fun _ _ _ hk => Option.some.inj hk ▸ rfl) hd hd'
      hown
  have hcount : (log ++ more).dataCount ≤ 2 := by
    have hlength : d'.hub.server.sent.length = 2 := by simpa using congrArg List.length hserials
    rw [← hlength, hmore, hsent, ← Log.published_append]
    exact Log.dataCount_le _ 0
  refine ⟨d, d', hd, hd', hdispatched, hserials, log, more, hsent, hmore, fun n m hentry hn => ?_,
    habove (by omega) 2⟩
  exact hbehind 2 n m hentry (by rw [hone]; exact hn)

end Deployment

end TntPub
