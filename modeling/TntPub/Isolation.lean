import TntPub.Containment

namespace TntPub

open Framing

namespace Traffic

/-- The inputs of one client, up to the end of its stream. -/
def chunksOf (i : ResponderId) : List Traffic → List Bytes
  | [] => []
  | connect _ :: es => chunksOf i es
  | output _ _ :: es => chunksOf i es
  | input j bytes eof :: es =>
    if j = i then if eof then [bytes] else bytes :: chunksOf i es else chunksOf i es

/-- The bytes one client sends. -/
def streamOf (i : ResponderId) (es : List Traffic) : Bytes := (chunksOf i es).flatten

def endsOf (i : ResponderId) (es : List Traffic) : Bool :=
  es.any fun
    | input j _ eof => decide (j = i) && eof
    | _ => false

/-- The same traffic with a client that sends the first bytes of its stream only. -/
def truncate (i : ResponderId) : Nat → List Traffic → List Traffic
  | _, [] => []
  | left, connect j :: es => connect j :: truncate i left es
  | left, output j count :: es => output j count :: truncate i left es
  | left, input j bytes eof :: es =>
    if j = i then input i (bytes.take left) eof :: truncate i (left - bytes.length) es
    else input j bytes eof :: truncate i left es

variable {i : ResponderId} {e : Traffic} {es : List Traffic}

theorem eq_of_isFrom (h : e.isFrom i = true) :
    e = connect i ∨ ∃ bytes eof, e = input i bytes eof := by
  cases e with
  | connect j => exact .inl (congrArg connect (beq_iff_eq.mp h))
  | input j bytes eof => exact .inr ⟨bytes, eof, by rw [beq_iff_eq.mp h]⟩
  | output j count => cases h

theorem cons_other (h : e.isFrom i = false) (es : List Traffic) (left : Nat) :
    chunksOf i (e :: es) = chunksOf i es ∧ endsOf i (e :: es) = endsOf i es ∧
      truncate i left (e :: es) = e :: truncate i left es := by
  cases e with
  | connect j => exact ⟨rfl, rfl, rfl⟩
  | output j count => exact ⟨rfl, rfl, rfl⟩
  | input j bytes eof =>
    have hj : j ≠ i := by simpa [isFrom] using h
    exact ⟨if_neg hj, by simp [endsOf, hj], if_neg hj⟩

theorem chunksOf_input (bytes : Bytes) (eof : Bool) (es : List Traffic) :
    chunksOf i (input i bytes eof :: es) = bytes :: if eof then [] else chunksOf i es := by
  rw [chunksOf, if_pos rfl]
  split <;> rfl

theorem endsOf_input (bytes : Bytes) (eof : Bool) (es : List Traffic) :
    endsOf i (input i bytes eof :: es) = (eof || endsOf i es) := by
  simp [endsOf]

theorem truncate_input (left : Nat) (bytes : Bytes) (eof : Bool) (es : List Traffic) :
    truncate i left (input i bytes eof :: es) =
      input i (bytes.take left) eof :: truncate i (left - bytes.length) es :=
  if_pos rfl

theorem chunksOf_append (es es' : List Traffic) :
    chunksOf i (es ++ es') = chunksOf i es ++ if endsOf i es then [] else chunksOf i es' := by
  induction es with
  | nil => rfl
  | cons e es ih =>
    rw [List.cons_append]
    by_cases hfrom : e.isFrom i = true
    · rcases eq_of_isFrom hfrom with rfl | ⟨bytes, eof, rfl⟩
      · exact ih
      · rw [chunksOf_input, chunksOf_input, endsOf_input]
        cases eof with
        | true => rfl
        | false => exact congrArg (bytes :: ·) ih
    · have hother : e.isFrom i = false := by simpa using hfrom
      rw [(cons_other hother _ 0).1, (cons_other hother es 0).1, (cons_other hother es 0).2.1, ih]

theorem streamOf_truncate (left : Nat) (es : List Traffic) :
    streamOf i (truncate i left es) = (streamOf i es).take left := by
  induction es generalizing left with
  | nil => exact List.take_nil.symm
  | cons e es ih =>
    simp only [streamOf] at ih ⊢
    by_cases hfrom : e.isFrom i = true
    · rcases eq_of_isFrom hfrom with rfl | ⟨bytes, eof, rfl⟩
      · exact ih left
      · rw [truncate_input, chunksOf_input, chunksOf_input, List.flatten_cons, List.flatten_cons,
          List.take_append]
        cases eof with
        | true => simp
        | false => rw [if_neg Bool.false_ne_true, if_neg Bool.false_ne_true, ih]
    · obtain ⟨hchunks, -, htruncate⟩ := cons_other (by simpa using hfrom) es left
      rw [hchunks, htruncate, (cons_other (by simpa using hfrom) _ 0).1, ih]

end Traffic

/-- The frames before the first one that is malformed or is thrown at. -/
def leadingFrames (rx : Regex) (xs : Bytes) : List DataMessage :=
  (framer false).leading (DataMessage.isAccepted rx) xs

/-- The message behind these, if the handling of it throws. -/
def throwingFrame (rx : Regex) (xs : Bytes) : Option DataMessage :=
  (framer false).offending (DataMessage.isAccepted rx) xs

/-- The traffic with a client that sends only its leading frames. -/
def Traffic.onlyLeading (rx : Regex) (i : ResponderId) (es : List Traffic) : List Traffic :=
  truncate i ((framer false).leadingSpan (DataMessage.isAccepted rx) (streamOf i es)) es

section Runs

open Traffic

variable {rx : Regex} {i : ResponderId} {base : List DataMessage} {xs : Bytes} {ended : Bool}
  {whole left : Nat} {n n' : Network}

/-- The connection of a client that has sent `xs`, and that of one that has sent the part of
`xs` that is among the first `whole` bytes. -/
def Related (rx : Regex) (base : List DataMessage) (xs : Bytes) (ended : Bool)
    (whole left : Nat) (c c' : Connection) : Prop :=
  (ended = false ∧ left = whole - xs.length ∧
    ¬ (framer false).Stopped (DataMessage.isAccepted rx) xs ∧
    Opened (base ++ leadingFrames rx xs) ⟨((framer false).drain xs).rest, false⟩
      ⟨((framer false).drain (xs.take whole)).rest, false⟩ c c') ∨
  ((ended = true ∨ (framer false).Stopped (DataMessage.isAccepted rx) xs) ∧
    Shut (base ++ leadingFrames rx xs ++ (throwingFrame rx xs).toList)
      (base ++ leadingFrames rx xs) left c c')

theorem passive_related : Passive rx i (Related rx base xs ended whole left) where
  offer {c c'} m h := by
    rcases h with ⟨hended, hleft, hgoes, h⟩ | ⟨hwhy, h⟩
    · exact .inl ⟨hended, hleft, hgoes, (passive_opened rx i).offer m h⟩
    · exact .inr ⟨hwhy, (passive_shut rx i).offer m h⟩
  output {c c'} count h := by
    rcases h with ⟨hended, hleft, hgoes, h⟩ | ⟨hwhy, h⟩
    · exact .inl ⟨hended, hleft, hgoes, (passive_opened rx i).output count h⟩
    · exact .inr ⟨hwhy, (passive_shut rx i).output count h⟩

/-- What the deserializers of both take from a further input. -/
theorem sends_next {bytes more : Bytes}
    (hwhole : whole = (framer false).leadingSpan (DataMessage.isAccepted rx)
      (xs ++ (bytes ++ more)))
    (hgoes : ¬ (framer false).Stopped (DataMessage.isAccepted rx) xs)
    (hsize : (((framer false).drain xs).rest ++ bytes).length < 2 ^ 32) :
    Sends rx ⟨((framer false).drain xs).rest, false⟩
      ⟨((framer false).drain (xs.take whole)).rest, false⟩ bytes
      (bytes.take (whole - xs.length))
      ((framer false).drain (((framer false).drain xs).rest ++ bytes))
      ⟨((framer false).drain (((framer false).drain xs).rest ++ bytes)).messages.takeWhile
          (DataMessage.isAccepted rx),
        ((framer false).drain ((xs ++ bytes).take whole)).rest, none⟩ := by
  subst hwhole
  have hnext := Framer.drain_take_next (framer_exact false) hgoes bytes more
  have hlength := Framer.length_take_next (p := DataMessage.isAccepted rx) (framer_exact false)
    xs bytes more
  obtain ⟨rest, hcut, -⟩ := Framer.drain_take_received (framer_exact false)
    (DataMessage.isAccepted rx) xs (bytes ++ more)
  have herr := (Framer.leading_of_not_stopped hgoes).1
  have herr' := congrArg Drained.error hcut
  refine ⟨fun r => ?_, fun r => ?_, rfl, rfl⟩
  · exact Server.takes_eq_drain (r := r.withInput _) (Framer.front_drain_rest_of_ok herr) hsize
  · rw [← hnext]
    exact Server.takes_eq_drain (r := r.withInput _)
      (Framer.front_drain_rest_of_ok herr') (lt_of_le_of_lt hlength hsize)

/-- An input that no leading frame comes behind of, or that is the last one. -/
theorem opened_stops {bytes more : Bytes} {eof : Bool} (h : Agree i n n')
    (hown : Opened (base ++ leadingFrames rx xs) ⟨((framer false).drain xs).rest, false⟩
      ⟨((framer false).drain (xs.take whole)).rest, false⟩ (n.connections i) (n'.connections i))
    (hwhole : whole = (framer false).leadingSpan (DataMessage.isAccepted rx)
      (xs ++ (bytes ++ more)))
    (hgoes : ¬ (framer false).Stopped (DataMessage.isAccepted rx) xs)
    (hsize : (((framer false).drain xs).rest ++ bytes).length < 2 ^ 32)
    (hstop : eof = true ∨ (framer false).Stopped (DataMessage.isAccepted rx) (xs ++ bytes)) :
    Agree i (n.input rx i bytes eof) (n'.input rx i (bytes.take (whole - xs.length)) eof) ∧
      Shut (base ++ leadingFrames rx (xs ++ bytes) ++ (throwingFrame rx (xs ++ bytes)).toList)
        (base ++ leadingFrames rx (xs ++ bytes)) (whole - (xs ++ bytes).length)
        ((n.input rx i bytes eof).connections i)
        ((n'.input rx i (bytes.take (whole - xs.length)) eof).connections i) := by
  have hsends := sends_next hwhole hgoes hsize
  obtain ⟨herror, hoffending⟩ := Framer.stopped_append hgoes bytes
  have hidle : eof = false → whole - (xs ++ bytes).length = 0 ∧
      (⟨((framer false).drain ((xs ++ bytes).take whole)).rest, false⟩ : Deserializer) = {} := by
    intro heof
    have hstopped := hstop.resolve_left (by simp [heof])
    obtain ⟨hleft, hnil⟩ := hstopped.nothing_left (framer_exact false) more
    rw [List.append_assoc, ← hwhole] at hleft hnil
    exact ⟨hleft, by rw [hnil]⟩
  have hshut := hsends.input_shut h hown hidle (by
    rcases hstop with heof | herr | hthrows
    · exact .inr (.inr heof)
    · exact .inl (herror ▸ herr)
    · refine .inr (.inl fun hnil => hthrows ?_)
      rw [hoffending, hnil, List.head?_nil])
  rw [leadingFrames, throwingFrame, Framer.leading_append hgoes, hoffending,
    ← List.append_assoc]
  exact hshut

theorem opened_goes {bytes more : Bytes} (h : Agree i n n')
    (hown : Opened (base ++ leadingFrames rx xs) ⟨((framer false).drain xs).rest, false⟩
      ⟨((framer false).drain (xs.take whole)).rest, false⟩ (n.connections i) (n'.connections i))
    (hwhole : whole = (framer false).leadingSpan (DataMessage.isAccepted rx)
      (xs ++ (bytes ++ more)))
    (hgoes : ¬ (framer false).Stopped (DataMessage.isAccepted rx) xs)
    (hsize : (((framer false).drain xs).rest ++ bytes).length < 2 ^ 32)
    (hgoes' : ¬ (framer false).Stopped (DataMessage.isAccepted rx) (xs ++ bytes)) :
    Agree i (n.input rx i bytes false) (n'.input rx i (bytes.take (whole - xs.length)) false) ∧
      Opened (base ++ leadingFrames rx (xs ++ bytes))
        ⟨((framer false).drain (xs ++ bytes)).rest, false⟩
        ⟨((framer false).drain ((xs ++ bytes).take whole)).rest, false⟩
        ((n.input rx i bytes false).connections i)
        ((n'.input rx i (bytes.take (whole - xs.length)) false).connections i) := by
  have hsends := sends_next hwhole hgoes hsize
  obtain ⟨herror, hoffending⟩ := Framer.stopped_append hgoes bytes
  obtain ⟨herr, hall⟩ := not_or.mp hgoes'
  rw [herror] at herr
  rw [hoffending] at hall
  have hopened := hsends.input_opened h hown (List.head?_eq_none_iff.mp (not_not.mp hall))
    (not_not.mp herr)
  have hrest : ((framer false).drain (xs ++ bytes)).rest =
      ((framer false).drain (((framer false).drain xs).rest ++ bytes)).rest := by
    rw [Framer.messages_append_of_ok (Framer.leading_of_not_stopped hgoes).1]
    rfl
  rw [leadingFrames, Framer.leading_append hgoes, hrest, ← List.append_assoc]
  exact hopened

/-- One input of the client. -/
theorem Related.input {bytes more : Bytes} (h : Agree i n n')
    (hown : Related rx base xs false whole left (n.connections i) (n'.connections i))
    (hwhole : whole = (framer false).leadingSpan (DataMessage.isAccepted rx)
      (xs ++ (bytes ++ more)))
    (hsize : ¬ (framer false).Stopped (DataMessage.isAccepted rx) xs →
      (((framer false).drain xs).rest ++ bytes).length < 2 ^ 32) (eof : Bool) :
    Agree i (n.input rx i bytes eof) (n'.input rx i (bytes.take left) eof) ∧
      Related rx base (xs ++ bytes) eof whole (left - bytes.length)
        ((n.input rx i bytes eof).connections i)
        ((n'.input rx i (bytes.take left) eof).connections i) := by
  rcases hown with ⟨-, hleft, hgoes, hopened⟩ | ⟨hwhy, hshut⟩
  · subst hleft
    rw [Nat.sub_sub, ← List.length_append]
    by_cases hstop : eof = true ∨
      (framer false).Stopped (DataMessage.isAccepted rx) (xs ++ bytes)
    · obtain ⟨hagree, hshut⟩ := opened_stops h hopened hwhole hgoes (hsize hgoes) hstop
      exact ⟨hagree, .inr ⟨hstop, hshut⟩⟩
    · obtain ⟨heof, hgoes'⟩ := not_or.mp hstop
      obtain rfl : eof = false := by simpa using heof
      obtain ⟨hagree, hnext⟩ := opened_goes h hopened hwhole hgoes (hsize hgoes) hgoes'
      exact ⟨hagree, .inl ⟨rfl, rfl, hgoes', hnext⟩⟩
  · have hstopped := hwhy.resolve_left (by simp)
    obtain ⟨hstopped', hleading, hoffending⟩ := hstopped.append bytes
    obtain ⟨hagree, hidle⟩ := h.input_idle rx hshut bytes eof
    refine ⟨hagree, .inr ⟨.inr hstopped', ?_⟩⟩
    rw [leadingFrames, throwingFrame, hleading, hoffending]
    exact hidle

theorem shut_run {ms ms' : List DataMessage} {es : List Traffic} (h : Agree i n n')
    (hown : Shut ms ms' left (n.connections i) (n'.connections i))
    (hes : ∀ e ∈ es, e ≠ .connect i) :
    ∃ left', Agree i (es.foldl (Network.step rx) n)
        ((truncate i left es).foldl (Network.step rx) n') ∧
      Shut ms ms' left' ((es.foldl (Network.step rx) n).connections i)
        (((truncate i left es).foldl (Network.step rx) n').connections i) := by
  induction es generalizing n n' left with
  | nil => exact ⟨left, h, hown⟩
  | cons e es ih =>
    have hrest := fun k hk => hes k (List.mem_cons_of_mem e hk)
    by_cases hfrom : e.isFrom i = true
    · rcases eq_of_isFrom hfrom with rfl | ⟨bytes, eof, rfl⟩
      · exact absurd rfl (hes _ List.mem_cons_self)
      · obtain ⟨h', hown'⟩ := h.input_idle rx hown bytes eof
        rw [truncate_input]
        exact ih h' hown' hrest
    · have hother : e.isFrom i = false := by simpa using hfrom
      obtain ⟨h', hown'⟩ := h.step_other (passive_shut rx i) hown hother
      rw [(cons_other hother es left).2.2]
      exact ih h' hown' hrest

/-- The two runs go together, whatever the other clients do. -/
theorem related_run {es : List Traffic} (h : Agree i n n')
    (hown : Related rx base xs false whole left (n.connections i) (n'.connections i))
    (hes : ∀ e ∈ es, e ≠ .connect i)
    (hwhole : whole = (framer false).leadingSpan (DataMessage.isAccepted rx) (xs ++ streamOf i es))
    (hbelow : ¬ (framer false).Stopped (DataMessage.isAccepted rx) xs →
      Deserializer.StaysBelow false ((framer false).drain xs).rest (chunksOf i es)) :
    ∃ left', Agree i (es.foldl (Network.step rx) n)
        ((truncate i left es).foldl (Network.step rx) n') ∧
      Related rx base (xs ++ streamOf i es) (endsOf i es) whole left'
        ((es.foldl (Network.step rx) n).connections i)
        (((truncate i left es).foldl (Network.step rx) n').connections i) := by
  induction es generalizing n n' xs left with
  | nil =>
    refine ⟨left, h, ?_⟩
    rw [streamOf, chunksOf, List.flatten_nil, List.append_nil]
    exact hown
  | cons e es ih =>
    have hrest := fun k hk => hes k (List.mem_cons_of_mem e hk)
    by_cases hfrom : e.isFrom i = true
    · rcases eq_of_isFrom hfrom with rfl | ⟨bytes, eof, rfl⟩
      · exact absurd rfl (hes _ List.mem_cons_self)
      · rw [streamOf, chunksOf_input, List.flatten_cons] at hwhole ⊢
        rw [chunksOf_input] at hbelow
        obtain ⟨h', hown'⟩ := hown.input h hwhole (fun hgoes => (hbelow hgoes).1) eof
        rw [truncate_input, endsOf_input, ← List.append_assoc]
        rw [← List.append_assoc] at hwhole
        cases eof with
        | true =>
          obtain ⟨-, hshut⟩ := hown'.resolve_left (by simp)
          obtain ⟨left', hagree, hlast⟩ := shut_run h' hshut hrest
          rw [if_pos rfl, List.flatten_nil, List.append_nil]
          exact ⟨left', hagree, .inr ⟨.inl rfl, hlast⟩⟩
        | false =>
          refine ih h' hown' hrest hwhole fun hgoes => ?_
          have hgoes' : ¬ (framer false).Stopped (DataMessage.isAccepted rx) xs :=
            fun hstopped => hgoes (hstopped.append bytes).1
          obtain ⟨herr, -⟩ := Framer.stopped_append hgoes' bytes
          have hok := (Framer.leading_of_not_stopped hgoes).1
          have hnext := (hbelow hgoes').2 (herr ▸ hok)
          rw [Framer.messages_append_of_ok (Framer.leading_of_not_stopped hgoes').1]
          exact hnext
    · have hother : e.isFrom i = false := by simpa using hfrom
      obtain ⟨hchunks, hends, htruncate⟩ := cons_other hother es left
      obtain ⟨h', hown'⟩ := h.step_other passive_related hown hother
      rw [streamOf, hchunks] at hwhole ⊢
      rw [hchunks] at hbelow
      rw [htruncate, hends]
      exact ih h' hown' hrest hwhole hbelow

theorem related_start (rx : Regex) (n : Network) (i : ResponderId) {r : Responder}
    (hr : (n.connections i).responder = some r) (hd : r.deserializer = {}) (whole : Nat) :
    Related rx (n.connections i).handled [] false whole whole (n.connections i)
      (n.connections i) := by
  have hleading : leadingFrames rx [] = [] := by
    rw [leadingFrames, Framer.leading, Framer.drain_nil, List.takeWhile_nil]
  have hgoes : ¬ (framer false).Stopped (DataMessage.isAccepted rx) [] := by
    rw [Framer.Stopped, Framer.offending, Framer.drain_nil]
    simp
  have hr' : (n.connections i).responder = some (r.withInput {}) := by
    rw [hr, ← hd]
    rfl
  refine .inl ⟨rfl, rfl, hgoes, ?_⟩
  rw [hleading, List.append_nil, List.take_nil, Framer.drain_nil]
  exact ⟨⟨r, hr', hr'⟩, rfl, rfl⟩

theorem Related.outcome {c c' : Connection} (h : Related rx base xs ended whole left c c') :
    c.handled = base ++ leadingFrames rx xs ++ (throwingFrame rx xs).toList ∧
      c'.handled = base ++ leadingFrames rx xs ∧
      (c.responder = none ↔ ended = true ∨ ((framer false).drain xs).error ≠ none ∨
        throwingFrame rx xs ≠ none) := by
  rcases h with ⟨hended, -, hgoes, hopened⟩ | ⟨hwhy, hshut⟩
  · obtain ⟨r, hr, -⟩ := hopened.responder
    have hnone : throwingFrame rx xs = none := not_not.mp (not_or.mp hgoes).2
    refine ⟨?_, hopened.handled', fun hclosed => ?_, fun hwhy => ?_⟩
    · rw [hopened.handled, hnone, Option.toList_none, List.append_nil]
    · rw [hr] at hclosed
      cases hclosed
    · rcases hwhy with hwhy | hwhy
      · rw [hended] at hwhy
        cases hwhy
      · exact absurd hwhy hgoes
  · exact ⟨hshut.handled, hshut.handled', fun _ => hwhy, fun _ => hshut.closed⟩

/-- What an input of the client is to the other connections, once it has sent `xs`. -/
theorem input_gains {c' : Connection}
    (hown : Related rx base xs ended whole left (n.connections i) c') (bytes : Bytes) (eof : Bool)
    (hsize : ended = false → ¬ (framer false).Stopped (DataMessage.isAccepted rx) xs →
      (((framer false).drain xs).rest ++ bytes).length < 2 ^ 32) :
    ∃ new, leadingFrames rx (xs ++ if ended then [] else bytes) = leadingFrames rx xs ++ new ∧
      ∀ j, j ≠ i → (n.input rx i bytes eof).connections j =
        (n.connections j).gain rx (DataMessage.numbered n.lastSerial new) := by
  rcases hown with ⟨hended, -, hgoes, hopened⟩ | ⟨hwhy, hshut⟩
  · obtain ⟨r, hr, -⟩ := hopened.responder
    have htakes := Server.takes_eq_drain (r := r.withInput ⟨((framer false).drain xs).rest, false⟩)
      (Framer.front_drain_rest_of_ok (Framer.leading_of_not_stopped hgoes).1) (hsize hended hgoes)
    refine ⟨((framer false).drain (((framer false).drain xs).rest ++ bytes)).messages.takeWhile
      (DataMessage.isAccepted rx), ?_, fun j hj => ?_⟩
    · rw [hended, if_neg Bool.false_ne_true]
      exact Framer.leading_append hgoes bytes
    · have hinput : (n.input rx i bytes eof).connections j = (n.take rx i ((r.withInput
          ⟨((framer false).drain xs).rest, false⟩).takes bytes)).connections j := by
        simp only [Network.input, hr]
        split
        next => exact if_neg hj
        next =>
          split
          next => exact if_neg hj
          next => exact if_neg hj
      rw [hinput, Network.take, Network.foldl_receive_other hj, htakes]
      rfl
  · refine ⟨[], ?_, fun j hj => ?_⟩
    · rw [List.append_nil]
      split
      next => rw [List.append_nil]
      next hended => exact ((hwhy.resolve_left hended).append bytes).2.1
    · simp only [Network.input, hshut.closed]
      exact (Connection.gain_nil _).symm

end Runs

namespace Server

open Traffic

variable {rx : Regex} {s : Server} {i : ResponderId} {r : Responder}

/-- An input of one client gives the others the matching data messages among the leading frames
that came with it. -/
theorem trafficStep_gains {before : List Traffic} {bytes : Bytes} {eof : Bool}
    (hmax : s.maxOBuf = 0) (hr : s.responders.find i = some r) (hd : r.deserializer = {})
    (hes : ∀ e ∈ before, e ≠ .connect i)
    (hbelow : Deserializer.StaysBelow false [] (chunksOf i (before ++ [.input i bytes eof]))) :
    ∃ t u new, Runs.run (trafficStep rx) s before = some t ∧
      trafficStep rx t (.input i bytes eof) = some u ∧
      leadingFrames rx (streamOf i (before ++ [.input i bytes eof])) =
        leadingFrames rx (streamOf i before) ++ new ∧
      ∀ j, j ≠ i →
        u.connection j = (t.connection j).gain rx (DataMessage.numbered t.lastSerial new) := by
  obtain ⟨t, ht, htmax, hnetwork⟩ := run_network rx hmax before
  obtain ⟨u, hu, -, hstep⟩ := trafficStep_network rx htmax (.input i bytes eof)
  rw [chunksOf_append] at hbelow
  have hstart := related_start rx s.network i hr hd
    ((framer false).leadingSpan (DataMessage.isAccepted rx) (streamOf i before))
  obtain ⟨left, -, hrelated⟩ := related_run (.refl i s.network) hstart hes rfl fun _ => by
    rw [Framer.drain_nil]
    exact Deserializer.staysBelow_left hbelow
  rw [← hnetwork, List.nil_append] at hrelated
  obtain ⟨new, hnew, hothers⟩ := input_gains hrelated bytes eof
    fun hended hgoes => by
      have hok := (Framer.leading_of_not_stopped hgoes).1
      rw [hended, if_neg Bool.false_ne_true] at hbelow
      have hrest := Deserializer.staysBelow_right hbelow (framer false).front_nil hok
      rw [chunksOf_input] at hrest
      exact hrest.1
  refine ⟨t, u, new, ht, hu, ?_, fun j hj => ?_⟩
  · rw [← hnew, streamOf, streamOf, chunksOf_append]
    split
    next => rw [List.append_nil, List.append_nil]
    next =>
      rw [List.flatten_append, chunksOf_input, List.flatten_cons]
      split <;> simp [chunksOf]
  · have hconnection : u.connection j = u.network.connections j := rfl
    rw [hconnection, hstep]
    exact hothers j hj

/-- A client is answered up to its first frame that is malformed or thrown at, then it is
closed, and the others do not see more of it than of one that sends the frames before. -/
theorem misbehaving_contained (rx : Regex) (es : List Traffic) (hmax : s.maxOBuf = 0)
    (hr : s.responders.find i = some r) (hd : r.deserializer = {})
    (hes : ∀ e ∈ es, e ≠ .connect i)
    (hbelow : Deserializer.StaysBelow false [] (chunksOf i es)) :
    ∃ t u, Runs.run (trafficStep rx) s es = some t ∧
      Runs.run (trafficStep rx) s (onlyLeading rx i es) = some u ∧
      (framer false).drain (streamOf i (onlyLeading rx i es)) =
        ⟨leadingFrames rx (streamOf i es), [], none⟩ ∧
      t.handledFrom i = s.handledFrom i ++ leadingFrames rx (streamOf i es) ++
        (throwingFrame rx (streamOf i es)).toList ∧
      u.handledFrom i = s.handledFrom i ++ leadingFrames rx (streamOf i es) ∧
      (t.responders.find i = none ↔ endsOf i es = true ∨
        ((framer false).drain (streamOf i es)).error ≠ none ∨
        throwingFrame rx (streamOf i es) ≠ none) ∧
      t.lastSerial = u.lastSerial ∧
      t.shared.dispatches.map Prod.fst = u.shared.dispatches.map Prod.fst ∧
      (∀ j, j ≠ i → t.connection j = u.connection j) ∧
      ∀ before bytes eof after, es = before ++ .input i bytes eof :: after →
        ∃ t u new, Runs.run (trafficStep rx) s before = some t ∧
          trafficStep rx t (.input i bytes eof) = some u ∧
          leadingFrames rx (streamOf i (before ++ [.input i bytes eof])) =
            leadingFrames rx (streamOf i before) ++ new ∧
          ∀ j, j ≠ i →
            u.connection j = (t.connection j).gain rx (DataMessage.numbered t.lastSerial new) := by
  obtain ⟨t, ht, -, hnetwork⟩ := run_network rx hmax es
  obtain ⟨u, hu, -, hnetwork'⟩ := run_network rx hmax (onlyLeading rx i es)
  have hstart := related_start rx s.network i hr hd
    ((framer false).leadingSpan (DataMessage.isAccepted rx) (streamOf i es))
  obtain ⟨left, hagree, hrelated⟩ := related_run (.refl i s.network) hstart hes rfl fun _ => by
    rw [Framer.drain_nil]
    exact hbelow
  rw [← onlyLeading, ← hnetwork, ← hnetwork'] at hagree hrelated
  rw [List.nil_append] at hrelated
  obtain ⟨hhandled, hhandled', hclosed⟩ := hrelated.outcome
  refine ⟨t, u, ht, hu, ?_, hhandled, hhandled', hclosed, hagree.lastSerial, hagree.sent,
    hagree.others, ?_⟩
  · rw [onlyLeading, streamOf_truncate]
    exact Framer.drain_take_leading (framer_exact false) _ _
  · rintro before bytes eof after rfl
    refine trafficStep_gains hmax hr hd (fun e he => hes e (List.mem_append_left _ he)) ?_
    rw [List.append_cons, chunksOf_append] at hbelow
    exact Deserializer.staysBelow_left hbelow

def twoClients : Server := onConnectionPending oneClient 1

/-- One client subscribes to what the other one sends before it sends garbage. -/
def garbage : List Traffic :=
  [.input 1 (DataMessage.subscribe ⟨[], 0, 0⟩ { main := [0x61] } .typeFull []).frame false,
    .input 0 (DataMessage.greeting.frame ++ List.replicate 200 0x41) false,
    .input 0 DataMessage.greeting.frame false]

theorem misbehaving_contained_garbage :
    ∃ t u, Runs.run (trafficStep .literal) twoClients garbage = some t ∧
      Runs.run (trafficStep .literal) twoClients (onlyLeading .literal 0 garbage) = some u ∧
      t.handledFrom 0 = [.greeting] ∧ u.handledFrom 0 = [.greeting] ∧
      t.responders.find 0 = none ∧ t.connection 1 = u.connection 1 := by
  have hleading : leadingFrames .literal (streamOf 0 garbage) = [.greeting] := by
    decide +kernel
  have hnone : throwingFrame .literal (streamOf 0 garbage) = none := by decide +kernel
  have herr : ((framer false).drain (streamOf 0 garbage)).error ≠ none := by decide +kernel
  have hsize : ([] ++ (chunksOf 0 garbage).flatten).length < 2 ^ 32 := by decide +kernel
  obtain ⟨t, u, ht, hu, -, hhandled, hhandled', hclosed, -, -, hothers, -⟩ :=
    misbehaving_contained .literal garbage (rfl : twoClients.maxOBuf = 0)
      (rfl : twoClients.responders.find 0 = some {}) rfl (by decide)
      (Deserializer.staysBelow_of_total hsize)
  rw [hleading] at hhandled hhandled'
  rw [hnone] at hhandled
  exact ⟨t, u, ht, hu, hhandled, hhandled', hclosed.mpr (.inr (.inl herr)), hothers 1 (by decide)⟩

end Server

end TntPub
