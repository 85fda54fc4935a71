import TntPub.Network
import TntPub.Leading

namespace TntPub

open Framing

theorem framer_exact (version1Flag : Bool) : (framer version1Flag).Exact := by
  intro xs m n h
  have htake := parseMessage_take le_rfl h
  have hlen : (xs.take n).length = n :=
    List.length_take_of_le ((framer version1Flag).frame_le h)
  rw [framer_front, hlen]
  exact htake

namespace Connection

def handled (c : Connection) : List DataMessage := c.events.filterMap Event.message

variable {rx : Regex} {i : ResponderId} {c : Connection}

theorem handled_offer (m : DataMessage) : (c.offer rx 0 m i).handled = c.handled := by
  rw [handled, Server.offer_events]
  rfl

theorem handled_log (m : DataMessage) : (c.log (.received i m)).handled = c.handled ++ [m] :=
  List.filterMap_append

theorem handled_close : (c.close i).handled = c.handled := by
  rw [handled, close, List.filterMap_append]
  exact List.append_nil _

end Connection

/-- Two networks that differ in one connection at most. -/
structure Agree (i : ResponderId) (n n' : Network) : Prop where
  lastSerial : n.lastSerial = n'.lastSerial
  sent : n.sent = n'.sent
  others : ∀ j, j ≠ i → n.connections j = n'.connections j

/-- A relation between two states of a connection that is kept by what the other clients
send it and by what it takes from its output. -/
structure Passive (rx : Regex) (i : ResponderId) (C : Connection → Connection → Prop) : Prop where
  offer : ∀ {c c'} (m : DataMessage), C c c' → C (c.offer rx 0 m i) (c'.offer rx 0 m i)
  output : ∀ {c c'} (count : Nat), C c c' →
    C (c.modify fun r => { r with outputBuffer := r.outputBuffer.drop count })
      (c'.modify fun r => { r with outputBuffer := r.outputBuffer.drop count })

def Traffic.isFrom (i : ResponderId) : Traffic → Bool
  | connect j => j == i
  | input j _ _ => j == i
  | output _ _ => false

namespace Agree

variable {rx : Regex} {i j : ResponderId} {n n' : Network} {C : Connection → Connection → Prop}

theorem refl (i : ResponderId) (n : Network) : Agree i n n := ⟨rfl, rfl, fun _ _ => rfl⟩

theorem update (h : Agree i n n') (c c' : Connection) :
    Agree i (n.update i c) (n'.update i c') where
  lastSerial := h.lastSerial
  sent := h.sent
  others j hj := by
    rw [Network.update_connections, Network.update_connections, if_neg hj, if_neg hj]
    exact h.others j hj

theorem update_other (h : Agree i n n') (hown : C (n.connections i) (n'.connections i))
    (hj : j ≠ i) {c c' : Connection} (hc : c = c') :
    Agree i (n.update j c) (n'.update j c') ∧
      C ((n.update j c).connections i) ((n'.update j c').connections i) := by
  subst hc
  refine ⟨⟨h.lastSerial, h.sent, fun k hk => ?_⟩, ?_⟩
  · rw [Network.update_connections, Network.update_connections, h.others k hk]
  · rw [Network.update_connections, Network.update_connections, if_neg hj.symm, if_neg hj.symm]
    exact hown

theorem receive_other (hC : Passive rx i C) (h : Agree i n n')
    (hown : C (n.connections i) (n'.connections i)) (hj : j ≠ i) (m : DataMessage) :
    Agree i (n.receive rx j m) (n'.receive rx j m) ∧
      C ((n.receive rx j m).connections i) ((n'.receive rx j m).connections i) := by
  unfold Network.receive
  split
  next =>
    refine ⟨⟨by rw [h.lastSerial], by rw [h.sent, h.lastSerial], fun k hk => ?_⟩, ?_⟩
    · simp only [h.others k hk, h.lastSerial]
    · simp only [if_neg hj.symm, h.lastSerial]
      exact hC.offer _ hown
  next => exact h.update_other hown hj (by rw [h.others j hj])

theorem foldl_other (hC : Passive rx i C) (h : Agree i n n')
    (hown : C (n.connections i) (n'.connections i)) (hj : j ≠ i) (ms : List DataMessage) :
    Agree i (ms.foldl (Network.receive rx j) n) (ms.foldl (Network.receive rx j) n') ∧
      C ((ms.foldl (Network.receive rx j) n).connections i)
        ((ms.foldl (Network.receive rx j) n').connections i) := by
  induction ms generalizing n n' with
  | nil => exact ⟨h, hown⟩
  | cons m ms ih =>
    obtain ⟨h', hown'⟩ := h.receive_other hC hown hj m
    exact ih h' hown'

theorem input_other (hC : Passive rx i C) (h : Agree i n n')
    (hown : C (n.connections i) (n'.connections i)) (hj : j ≠ i) (bytes : Bytes) (eof : Bool) :
    Agree i (n.input rx j bytes eof) (n'.input rx j bytes eof) ∧
      C ((n.input rx j bytes eof).connections i) ((n'.input rx j bytes eof).connections i) := by
  unfold Network.input
  rw [← h.others j hj]
  cases hr : (n.connections j).responder with
  | none => exact ⟨h, hown⟩
  | some r =>
    obtain ⟨h', hown'⟩ := h.foldl_other hC hown hj
      ((r.takes bytes).messages.takeWhile (DataMessage.isAccepted rx))
    have hconnection := h'.others j hj
    dsimp only [Network.take]
    split
    next => exact h'.update_other hown' hj (by rw [hconnection])
    next =>
      split
      next => exact h'.update_other hown' hj (by rw [hconnection])
      next => exact h'.update_other hown' hj (by rw [hconnection])

/-- What is not done by the one client keeps the agreement on all other connections. -/
theorem step_other (hC : Passive rx i C) (h : Agree i n n')
    (hown : C (n.connections i) (n'.connections i)) {e : Traffic} (he : e.isFrom i = false) :
    Agree i (n.step rx e) (n'.step rx e) ∧
      C ((n.step rx e).connections i) ((n'.step rx e).connections i) := by
  cases e with
  | connect j =>
    have hj : j ≠ i := by simpa [Traffic.isFrom] using he
    simp only [Network.step, Network.connect]
    rw [← h.others j hj]
    split
    next => exact h.update_other hown hj rfl
    next => exact ⟨h, hown⟩
  | input j bytes eof =>
    have hj : j ≠ i := by simpa [Traffic.isFrom] using he
    exact h.input_other hC hown hj bytes eof
  | output j count =>
    by_cases hj : j = i
    · subst hj
      refine ⟨h.update _ _, ?_⟩
      simp only [Network.step, Network.output, Network.update_connections, if_true]
      exact hC.output count hown
    · exact h.update_other hown hj (by rw [h.others j hj])

end Agree

/-- The connection of the client, and that of one that sends the leading frames only: both are
open, and differ in what their deserializers have collected. -/
structure Opened (ms : List DataMessage) (d d' : Deserializer) (c c' : Connection) : Prop where
  responder : ∃ r, c.responder = some (.withInput r d) ∧ c'.responder = some (.withInput r d')
  handled : c.handled = ms
  handled' : c'.handled = ms

/-- The first is closed, and nothing is left that the other sends. -/
structure Shut (ms ms' : List DataMessage) (left : Nat) (c c' : Connection) : Prop where
  closed : c.responder = none
  handled : c.handled = ms
  handled' : c'.handled = ms'
  idle : ∀ r, c'.responder = some r → left = 0 ∧ r.deserializer = {}

section OwnConnection

variable {rx : Regex} {i : ResponderId} {ms ms' : List DataMessage} {d d' : Deserializer}
  {left : Nat} {c c' : Connection} {n n' : Network}

theorem passive_opened (rx : Regex) (i : ResponderId) : Passive rx i (Opened ms d d') where
  offer {c c'} m h := by
    obtain ⟨r, hr, hr'⟩ := h.responder
    refine ⟨?_, by rw [Connection.handled_offer, h.handled],
      by rw [Connection.handled_offer, h.handled']⟩
    simp only [Server.offer_responder, hr, hr', Option.map_some]
    by_cases hsub : r.isSubscribed rx m.topic = true
    · have hsub1 : (r.withInput d).isSubscribed rx m.topic = true := hsub
      have hsub2 : (r.withInput d').isSubscribed rx m.topic = true := hsub
      rw [if_pos hsub1, if_pos hsub2]
      exact ⟨r.queue m, rfl, rfl⟩
    · have hsub1 : ¬ (r.withInput d).isSubscribed rx m.topic = true := hsub
      have hsub2 : ¬ (r.withInput d').isSubscribed rx m.topic = true := hsub
      rw [if_neg hsub1, if_neg hsub2]
      exact ⟨r, rfl, rfl⟩
  output {c c'} count h := by
    obtain ⟨r, hr, hr'⟩ := h.responder
    refine ⟨⟨{ r with outputBuffer := r.outputBuffer.drop count }, ?_, ?_⟩, h.handled, h.handled'⟩
    · rw [Connection.modify, hr]
      rfl
    · rw [Connection.modify, hr']
      rfl

theorem passive_shut (rx : Regex) (i : ResponderId) : Passive rx i (Shut ms ms' left) where
  offer {c c'} m h := by
    refine ⟨?_, by rw [Connection.handled_offer, h.handled],
      by rw [Connection.handled_offer, h.handled'], fun r hr => ?_⟩
    · rw [Server.offer_responder, h.closed]
      rfl
    · rw [Server.offer_responder] at hr
      obtain ⟨q, hq, rfl⟩ := Option.map_eq_some_iff.mp hr
      obtain ⟨hleft, hd⟩ := h.idle q hq
      refine ⟨hleft, ?_⟩
      split
      next => exact hd
      next => exact hd
  output {c c'} count h := by
    refine ⟨?_, h.handled, h.handled', fun r hr => ?_⟩
    · rw [Connection.modify, h.closed]
      rfl
    · obtain ⟨q, hq, rfl⟩ := Option.map_eq_some_iff.mp hr
      exact h.idle q hq

theorem Opened.control {m : DataMessage} (h : Opened ms d d' c c')
    (hm : m.isAccepted rx = true) :
    Opened (ms ++ [m]) d d' (c.control rx i m) (c'.control rx i m) := by
  obtain ⟨r, hr, hr'⟩ := h.responder
  obtain ⟨q, hq, -⟩ := r.control_accepted hm
  simp only [Connection.control, hr, hr', Responder.control_withInput, hq, Except.map]
  have hsignals : (Event.received i m :: signals i m).filterMap Event.message = [m] := by
    rw [List.filterMap_cons, Server.signals_message]
    rfl
  refine ⟨⟨q, rfl, rfl⟩, ?_, ?_⟩
  · rw [Connection.handled, List.filterMap_append, hsignals, ← Connection.handled, h.handled]
  · rw [Connection.handled, List.filterMap_append, hsignals, ← Connection.handled, h.handled']

theorem Opened.log (m : DataMessage) (h : Opened ms d d' c c') :
    Opened (ms ++ [m]) d d' (c.log (.received i m)) (c'.log (.received i m)) where
  responder := h.responder
  handled := by rw [Connection.handled_log, h.handled]
  handled' := by rw [Connection.handled_log, h.handled']

theorem Agree.receive_own {m : DataMessage} (h : Agree i n n')
    (hown : Opened ms d d' (n.connections i) (n'.connections i)) (hm : m.isAccepted rx = true) :
    Agree i (n.receive rx i m) (n'.receive rx i m) ∧
      Opened (ms ++ [m]) d d' ((n.receive rx i m).connections i)
        ((n'.receive rx i m).connections i) := by
  unfold Network.receive
  split
  next =>
    refine ⟨⟨by rw [h.lastSerial], by rw [h.sent, h.lastSerial], fun j hj => ?_⟩, ?_⟩
    · simp only [if_neg hj, h.others j hj, h.lastSerial]
    · simp only [if_true, h.lastSerial]
      exact (passive_opened rx i).offer _ (hown.log m)
  next =>
    refine ⟨h.update _ _, ?_⟩
    simp only [Network.update_connections, if_true]
    exact hown.control hm

theorem Agree.foldl_own {taken : List DataMessage} (h : Agree i n n')
    (hown : Opened ms d d' (n.connections i) (n'.connections i))
    (htaken : ∀ m ∈ taken, m.isAccepted rx = true) :
    Agree i (taken.foldl (Network.receive rx i) n) (taken.foldl (Network.receive rx i) n') ∧
      Opened (ms ++ taken) d d' ((taken.foldl (Network.receive rx i) n).connections i)
        ((taken.foldl (Network.receive rx i) n').connections i) := by
  induction taken generalizing n n' ms with
  | nil => exact ⟨h, by rw [List.append_nil]; exact hown⟩
  | cons m taken ih =>
    obtain ⟨h', hown'⟩ := h.receive_own hown (htaken m List.mem_cons_self)
    have hrest := ih h' hown' fun k hk => htaken k (List.mem_cons_of_mem m hk)
    rw [List.append_assoc, List.singleton_append] at hrest
    exact hrest

variable {bytes bytes' : Bytes} {eof : Bool} {D D' : Drained UInt8 DataMessage Exception}

/-- What the client and the other one send at once: the other sends what is accepted of it. -/
structure Sends (rx : Regex) (d d' : Deserializer) (bytes bytes' : Bytes)
    (D D' : Drained UInt8 DataMessage Exception) : Prop where
  takes : ∀ r, (Responder.withInput r d).takes bytes = D
  takes' : ∀ r, (Responder.withInput r d').takes bytes' = D'
  messages : D'.messages = D.messages.takeWhile (DataMessage.isAccepted rx)
  error : D'.error = none

theorem Sends.foldl (hsends : Sends rx d d' bytes bytes' D D') (h : Agree i n n')
    (hown : Opened ms d d' (n.connections i) (n'.connections i)) :
    Agree i (n.take rx i D) (n'.take rx i D') ∧
      Opened (ms ++ D.messages.takeWhile (DataMessage.isAccepted rx)) d d'
        ((n.take rx i D).connections i) ((n'.take rx i D').connections i) := by
  unfold Network.take
  rw [hsends.messages, List.takeWhile_idem]
  exact h.foldl_own hown fun m hm => List.mem_takeWhile_imp hm

theorem Sends.dropWhile (hsends : Sends rx d d' bytes bytes' D D') :
    D'.messages.dropWhile (DataMessage.isAccepted rx) = [] := by
  rw [hsends.messages]
  exact List.dropWhile_eq_nil_iff.mpr fun m hm => List.mem_takeWhile_imp hm

theorem Sends.input_opened (hsends : Sends rx d d' bytes bytes' D D') (h : Agree i n n')
    (hown : Opened ms d d' (n.connections i) (n'.connections i))
    (hall : D.messages.dropWhile (DataMessage.isAccepted rx) = []) (herr : D.error = none) :
    Agree i (n.input rx i bytes false) (n'.input rx i bytes' false) ∧
      Opened (ms ++ D.messages.takeWhile (DataMessage.isAccepted rx))
        { d with inputData := D.rest } { d' with inputData := D'.rest }
        ((n.input rx i bytes false).connections i)
        ((n'.input rx i bytes' false).connections i) := by
  obtain ⟨htake, hopened⟩ := hsends.foldl h hown
  obtain ⟨r, hr, hr'⟩ := hown.responder
  obtain ⟨q, hq, hq'⟩ := hopened.responder
  simp only [Network.input, hr, hr', hsends.takes, hsends.takes', hall, hsends.dropWhile, herr,
    hsends.error, Option.isSome_none, Bool.or_self, Bool.false_eq_true, if_false]
  refine ⟨htake.update _ _, ⟨q, ?_, ?_⟩, ?_, ?_⟩
  · rw [Network.update_connections, if_pos rfl, Connection.modify, hq]
    rfl
  · rw [Network.update_connections, if_pos rfl, Connection.modify, hq']
    rfl
  · rw [Network.update_connections, if_pos rfl]
    exact hopened.handled
  · rw [Network.update_connections, if_pos rfl]
    exact hopened.handled'

/-- The connection of the other client after such an input. -/
theorem Sends.input_other (hsends : Sends rx d d' bytes bytes' D D') (h : Agree i n n')
    (hown : Opened ms d d' (n.connections i) (n'.connections i))
    (hidle : eof = false → left = 0 ∧ ({ d' with inputData := D'.rest } : Deserializer) = {}) :
    ∃ c', n'.input rx i bytes' eof = (n'.take rx i D').update i c' ∧
      c'.handled = ms ++ D.messages.takeWhile (DataMessage.isAccepted rx) ∧
      ∀ r, c'.responder = some r → left = 0 ∧ r.deserializer = {} := by
  obtain ⟨-, hopened⟩ := hsends.foldl h hown
  obtain ⟨r, -, hr'⟩ := hown.responder
  simp only [Network.input, hr', hsends.takes', hsends.dropWhile, hsends.error,
    Option.isSome_none, Bool.false_or]
  cases eof with
  | true =>
    refine ⟨_, rfl, ?_, fun q hq => by cases hq⟩
    rw [Connection.handled_close]
    exact hopened.handled'
  | false =>
    refine ⟨_, rfl, hopened.handled', fun q hq => ?_⟩
    obtain ⟨k, -, rfl⟩ := Option.map_eq_some_iff.mp hq
    exact hidle rfl

theorem Sends.input_shut (hsends : Sends rx d d' bytes bytes' D D') (h : Agree i n n')
    (hown : Opened ms d d' (n.connections i) (n'.connections i))
    (hidle : eof = false → left = 0 ∧ ({ d' with inputData := D'.rest } : Deserializer) = {})
    (hstop : D.error ≠ none ∨ D.messages.dropWhile (DataMessage.isAccepted rx) ≠ [] ∨ eof = true) :
    Agree i (n.input rx i bytes eof) (n'.input rx i bytes' eof) ∧
      Shut (ms ++ D.messages.takeWhile (DataMessage.isAccepted rx) ++
          (D.messages.dropWhile (DataMessage.isAccepted rx)).head?.toList)
        (ms ++ D.messages.takeWhile (DataMessage.isAccepted rx)) left
        ((n.input rx i bytes eof).connections i) ((n'.input rx i bytes' eof).connections i) := by
  obtain ⟨htake, hopened⟩ := hsends.foldl h hown
  obtain ⟨c', hother, hhandled, hc'⟩ := hsends.input_other h hown hidle
  obtain ⟨r, hr, -⟩ := hown.responder
  have hclosed : ∃ c, n.input rx i bytes eof = (n.take rx i D).update i c ∧ c.responder = none ∧
      c.handled = ms ++ D.messages.takeWhile (DataMessage.isAccepted rx) ++
        (D.messages.dropWhile (DataMessage.isAccepted rx)).head?.toList := by
    simp only [Network.input, hr, hsends.takes]
    split
    next m rest hdrop =>
      refine ⟨_, rfl, rfl, ?_⟩
      rw [Connection.handled_close, Connection.handled_log, hopened.handled, hdrop]
      rfl
    next hdrop =>
      have hcond : (D.error.isSome || eof) = true := by
        rcases hstop with herr | hne | heof
        · rw [Option.isSome_iff_ne_none.mpr herr, Bool.true_or]
        · exact absurd hdrop hne
        · rw [heof, Bool.or_true]
      rw [if_pos hcond]
      refine ⟨_, rfl, rfl, ?_⟩
      rw [Connection.handled_close, hopened.handled, hdrop, List.head?_nil, Option.toList_none,
        List.append_nil]
  obtain ⟨c, hthis, hnone, hlast⟩ := hclosed
  rw [hthis, hother]
  refine ⟨htake.update _ _, ?_⟩
  rw [Network.update_connections, Network.update_connections, if_pos rfl, if_pos rfl]
  exact ⟨hnone, hlast, hhandled, hc'⟩

/-- A closed connection and one that only ends. -/
theorem Agree.input_idle (rx : Regex) (h : Agree i n n')
    (hown : Shut ms ms' left (n.connections i) (n'.connections i)) (bytes : Bytes) (eof : Bool) :
    Agree i (n.input rx i bytes eof) (n'.input rx i (bytes.take left) eof) ∧
      Shut ms ms' (left - bytes.length) ((n.input rx i bytes eof).connections i)
        ((n'.input rx i (bytes.take left) eof).connections i) := by
  have hthis : n.input rx i bytes eof = n := by
    simp only [Network.input, hown.closed]
  rw [hthis]
  cases hr : (n'.connections i).responder with
  | none =>
    have hother : n'.input rx i (bytes.take left) eof = n' := by
      simp only [Network.input, hr]
    rw [hother]
    refine ⟨h, hown.closed, hown.handled, hown.handled', fun r hr' => ?_⟩
    rw [hr] at hr'
    cases hr'
  | some r =>
    obtain ⟨hleft, hd⟩ := hown.idle r hr
    subst hleft
    have htakes : r.takes (bytes.take 0) = ⟨[], [], none⟩ := by
      rw [Responder.takes, hd]
      rfl
    have hupdate (c' : Connection) : Agree i n (n'.update i c') := by
      refine ⟨h.lastSerial, h.sent, fun j hj => ?_⟩
      rw [Network.update_connections, if_neg hj, h.others j hj]
    simp only [Network.input, hr, htakes, Network.take, List.takeWhile_nil, List.dropWhile_nil,
      List.foldl_nil, Option.isSome_none, Bool.false_or]
    cases eof with
    | true =>
      refine ⟨hupdate _, hown.closed, hown.handled, ?_, fun q hq => ?_⟩
      · simp only [if_true, Network.update_connections, Connection.handled_close]
        exact hown.handled'
      · simp [Connection.close] at hq
    | false =>
      refine ⟨hupdate _, hown.closed, hown.handled, ?_, fun q hq => ⟨Nat.zero_sub _, ?_⟩⟩
      · simp only [Bool.false_eq_true, if_false, Network.update_connections, if_true]
        exact hown.handled'
      · simp only [Bool.false_eq_true, if_false, Network.update_connections, if_true,
          Connection.modify, hr, Option.map_some, Option.some.injEq] at hq
        subst hq
        rw [Responder.withInput, hd]

end OwnConnection

end TntPub
