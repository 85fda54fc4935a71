import TntPub.DataMessage
import TntPub.Decimal

namespace TntPub

/-- `operator<<` for topics. -/
def Topic.print (topic : Topic) : Bytes :=
  if topic.sub.isEmpty then topic.main else topic.main ++ 0x5b :: topic.sub ++ [0x5d]

namespace DataMessage

/-- What `checksum` streams only if it is full. -/
def origin (full : Bool) (m : DataMessage) : Bytes :=
  if full then Decimal.encode m.serial.toNat ++ m.source else []

/-- What `checksum` streams into the digest. -/
def streamed (full : Bool) (m : DataMessage) : Bytes :=
  m.type.toChar :: m.topic.print ++ m.origin full ++
    Decimal.encode m.createDateTime.julian.toNat ++
      Decimal.encode m.createDateTime.totalUSecs.toNat ++ m.data

/-- `md5` is the digest of `cxxtools::Md5stream`. -/
def checksum {Digest : Type} (md5 : Bytes → Digest) (full : Bool) (m : DataMessage) : Digest :=
  md5 (m.streamed full)

structure SameFields (full : Bool) (a b : DataMessage) : Prop where
  type : a.type = b.type
  topic : a.topic = b.topic
  serial : full = true → a.serial = b.serial
  source : full = true → a.source = b.source
  createDateTime : a.createDateTime = b.createDateTime
  data : a.data = b.data

theorem SameFields.streamed {full : Bool} {a b : DataMessage} (h : SameFields full a b) :
    a.streamed full = b.streamed full := by
  have horigin : a.origin full = b.origin full := by
    cases full with
    | false => rfl
    | true => simp only [origin, h.serial rfl, h.source rfl]
  simp only [DataMessage.streamed, h.type, h.topic, h.createDateTime, h.data, horigin]

/-- The numbers have one digit each, and no other place in the streamed text can be taken for
the one where they stand. -/
structure IsReadable (full : Bool) (m : DataMessage) : Prop where
  sub : m.topic.sub = []
  main : ∀ p q, m.topic.main = p ++ 0x5b :: q ++ [0x5d] → q = []
  julian : m.createDateTime.julian.toNat < 10
  totalUSecs : m.createDateTime.totalUSecs.toNat < 10
  data : Decimal.Isolated (0x30 :: m.data)
  serial : full = true → m.serial.toNat < 10
  origin : full = true → ∀ b ∈ m.topic.main ++ m.source, Decimal.isDigit b = false
  front : full = false → Decimal.Isolated (m.topic.main ++ [0x30])

/-- A message made from a text cut at digits. -/
def ofCut (type : MessageType) (main : Bytes) (s : UInt8) (source : Bytes) (x y : UInt8)
    (data : Bytes) : DataMessage where
  type := type
  topic := { main := main }
  serial := UInt64.ofNat (s.toNat - 48)
  source := source
  createDateTime := ⟨UInt32.ofNat (x.toNat - 48), UInt64.ofNat (y.toNat - 48)⟩
  data := data

section Cut

variable {full : Bool} {a b : DataMessage}

theorem print_main (main : Bytes) : Topic.print { main := main } = main := rfl

theorem ofNat_digit {x : UInt8} (hx : Decimal.isDigit x = true) :
    (UInt32.ofNat (x.toNat - 48)).toNat = x.toNat - 48 ∧
      (UInt64.ofNat (x.toNat - 48)).toNat = x.toNat - 48 ∧ x.toNat - 48 < 10 := by
  rw [Decimal.isDigit_iff] at hx
  refine ⟨UInt32.toNat_ofNat_of_lt' ?_, UInt64.toNat_ofNat_of_lt' ?_, by omega⟩
  · show x.toNat - 48 < 2 ^ 32
    omega
  · show x.toNat - 48 < 2 ^ 64
    omega

theorem streamed_ofCut (type : MessageType) (main source data : Bytes) {s x y : UInt8}
    (hs : Decimal.isDigit s = true) (hx : Decimal.isDigit x = true)
    (hy : Decimal.isDigit y = true) :
    (ofCut type main s source x y data).streamed full =
      type.toChar :: main ++ (if full then s :: source else []) ++ x :: y :: data := by
  have hserial := Decimal.encode_digit hs
  have hjulian := Decimal.encode_digit hx
  have husecs := Decimal.encode_digit hy
  cases full <;>
    simp [streamed, ofCut, origin, print_main, (ofNat_digit hs).2.1, (ofNat_digit hx).1,
      (ofNat_digit hy).2.1, hserial, hjulian, husecs]

/-- Wherever the text of a readable message is cut at digits, the message is cut. -/
theorem cut_of_readable (hread : ∀ b, b.streamed full = a.streamed full → SameFields full a b)
    (main source data : Bytes) {s x y : UInt8} (hs : Decimal.isDigit s = true)
    (hx : Decimal.isDigit x = true) (hy : Decimal.isDigit y = true)
    (hcut : a.topic.print ++ a.origin full ++ Decimal.encode a.createDateTime.julian.toNat ++
      Decimal.encode a.createDateTime.totalUSecs.toNat ++ a.data =
        main ++ (if full then s :: source else []) ++ x :: y :: data) :
    SameFields full a (ofCut a.type main s source x y data) := by
  apply hread
  rw [streamed_ofCut a.type main source data hs hx hy]
  show _ = a.type.toChar :: (_ ++ _ ++ _ ++ _ ++ _)
  rw [hcut]
  rfl

theorem sub_of_readable (hread : ∀ b, b.streamed full = a.streamed full → SameFields full a b) :
    a.topic.sub = [] := by
  have hsame := hread { a with topic := { main := a.topic.print } } rfl
  exact congrArg Topic.sub hsame.topic

theorem print_of_sub {topic : Topic} (h : topic.sub = []) : topic.print = topic.main := by
  simp [Topic.print, h]

theorem print_brackets (p : Bytes) {q : Bytes} (h : q ≠ []) :
    Topic.print { main := p, sub := q } = p ++ 0x5b :: q ++ [0x5d] := by
  simp [Topic.print, h]

theorem brackets_of_readable
    (hread : ∀ b, b.streamed full = a.streamed full → SameFields full a b) {p q : Bytes}
    (h : a.topic.main = p ++ 0x5b :: q ++ [0x5d]) : q = [] := by
  by_contra hq
  have hprint : Topic.print { main := p, sub := q } = a.topic.print := by
    rw [print_brackets p hq, print_of_sub (sub_of_readable hread), h]
  have hsame := hread { a with topic := { main := p, sub := q } } (by
    simp only [streamed, hprint]
    rfl)
  have hsub := congrArg Topic.sub hsame.topic
  rw [sub_of_readable hread] at hsub
  exact hq hsub.symm

/-- A readable message has numbers of one digit: the others could go to the part before, or
after the last number. -/
theorem digits_of_readable
    (hread : ∀ b, b.streamed full = a.streamed full → SameFields full a b) :
    ∃ s x y, Decimal.isDigit s = true ∧ Decimal.isDigit x = true ∧ Decimal.isDigit y = true ∧
      (full = true → Decimal.encode a.serial.toNat = [s]) ∧
      Decimal.encode a.createDateTime.julian.toNat = [x] ∧
      Decimal.encode a.createDateTime.totalUSecs.toNat = [y] := by
  have hprint := print_of_sub (sub_of_readable hread)
  obtain ⟨pre, s, hserial, hs⟩ := Decimal.exists_last a.serial.toNat
  obtain ⟨p, x, hjulian, hx⟩ := Decimal.exists_last a.createDateTime.julian.toNat
  obtain ⟨y, t, husecs, hy⟩ := Decimal.exists_first a.createDateTime.totalUSecs.toNat
  refine ⟨s, x, y, hs, hx, hy, ?_⟩
  cases full with
  | true =>
    have hsame := cut_of_readable hread (a.topic.main ++ pre) (a.source ++ p) (t ++ a.data)
      hs hx hy (by simp [hprint, origin, hserial, hjulian, husecs, List.append_assoc])
    have hmain := congrArg Topic.main hsame.topic
    have hsource := hsame.source rfl
    have hdata := hsame.data
    have hpre : pre = [] := List.self_eq_append_right.mp hmain
    have hp : p = [] := List.self_eq_append_right.mp hsource
    have ht : t = [] := List.self_eq_append_left.mp hdata
    rw [hpre] at hserial
    rw [hp] at hjulian
    rw [ht] at husecs
    exact ⟨fun _ => hserial, hjulian, husecs⟩
  | false =>
    have hsame := cut_of_readable hread (a.topic.main ++ p) [] (t ++ a.data) hs hx hy (by
        simp [hprint, origin, hjulian, husecs, List.append_assoc])
    have hmain := congrArg Topic.main hsame.topic
    have hdata := hsame.data
    have hp : p = [] := List.self_eq_append_right.mp hmain
    have ht : t = [] := List.self_eq_append_left.mp hdata
    rw [hp] at hjulian
    rw [ht] at husecs
    exact ⟨fun h => absurd h (by decide), hjulian, husecs⟩

theorem data_of_readable
    (hread : ∀ b, b.streamed full = a.streamed full → SameFields full a b) :
    Decimal.Isolated (0x30 :: a.data) := by
  have hprint := print_of_sub (sub_of_readable hread)
  obtain ⟨s, x, y, hs, hx, hy, hserial, hjulian, husecs⟩ := digits_of_readable hread
  have hisolated : Decimal.Isolated (y :: a.data) := by
    rw [Decimal.isolated_iff]
    intro z x' y' r hcut hx'
    by_contra hy'
    rw [Bool.not_eq_false] at hy'
    have hsame : a.data = r := by
      cases full with
      | true =>
        exact (cut_of_readable hread a.topic.main (a.source ++ [x] ++ z) r hs hx' hy' (by
            simp [hprint, origin, hserial rfl, hjulian, husecs, List.append_assoc, hcut])).data
      | false =>
        exact (cut_of_readable hread (a.topic.main ++ [x] ++ z) [] r hs hx' hy' (by
            simp [hprint, origin, hjulian, husecs, List.append_assoc, hcut])).data
    have hlength := congrArg List.length hcut
    simp only [List.length_cons, List.length_append, hsame] at hlength
    omega
  exact hisolated.cons_digit hy

theorem origin_of_readable
    (hread : ∀ b, b.streamed true = a.streamed true → SameFields true a b) :
    ∀ b ∈ a.topic.main ++ a.source, Decimal.isDigit b = false := by
  have hprint := print_of_sub (sub_of_readable hread)
  obtain ⟨s, x, y, hs, hx, hy, hserial, hjulian, husecs⟩ := digits_of_readable hread
  intro b hb
  by_contra hdigit
  rw [Bool.not_eq_false] at hdigit
  rcases List.mem_append.mp hb with hb | hb
  · obtain ⟨p, q, hmain⟩ := List.append_of_mem hb
    have hsame := cut_of_readable hread p (q ++ [s] ++ a.source) a.data hdigit hx hy (by
        simp [hprint, origin, hserial, hjulian, husecs, List.append_assoc, hmain])
    have hp : a.topic.main = p := congrArg Topic.main hsame.topic
    have hlength := congrArg List.length hmain
    simp only [List.length_cons, List.length_append, hp] at hlength
    omega
  · obtain ⟨p, q, hsource⟩ := List.append_of_mem hb
    have hsame := cut_of_readable hread (a.topic.main ++ [s] ++ p) q a.data hdigit hx hy (by
        simp [hprint, origin, hserial, hjulian, husecs, List.append_assoc, hsource])
    have hq : a.source = q := hsame.source rfl
    have hlength := congrArg List.length hsource
    simp only [List.length_cons, List.length_append, hq] at hlength
    omega

theorem front_of_readable
    (hread : ∀ b, b.streamed false = a.streamed false → SameFields false a b) :
    Decimal.Isolated (a.topic.main ++ [0x30]) := by
  have hprint := print_of_sub (sub_of_readable hread)
  obtain ⟨s, x, y, hs, hx, hy, -, hjulian, husecs⟩ := digits_of_readable hread
  have hisolated : Decimal.Isolated (a.topic.main ++ [x]) := by
    rw [Decimal.isolated_iff]
    intro z x' y' r hcut hx'
    by_contra hy'
    rw [Bool.not_eq_false] at hy'
    have hsame := cut_of_readable hread z [] (r ++ [y] ++ a.data) hs hx' hy' (by
        have happend := congrArg (· ++ y :: a.data) hcut
        simpa [hprint, origin, hjulian, husecs, List.append_assoc] using happend)
    have hlength := congrArg List.length hsame.data
    simp only [ofCut, List.length_append, List.length_singleton] at hlength
    omega
  exact hisolated.append_digit hx

theorem isReadable_of_readable
    (hread : ∀ b, b.streamed full = a.streamed full → SameFields full a b) :
    a.IsReadable full := by
  obtain ⟨s, x, y, hs, hx, hy, hserial, hjulian, husecs⟩ := digits_of_readable hread
  exact
    { sub := sub_of_readable hread
      main := fun p q => brackets_of_readable hread
      julian := Decimal.encode_lt_of_singleton hjulian
      totalUSecs := Decimal.encode_lt_of_singleton husecs
      data := data_of_readable hread
      serial := fun hfull => Decimal.encode_lt_of_singleton (hserial hfull)
      origin := fun hfull => origin_of_readable (hfull ▸ hread)
      front := fun hfull => front_of_readable (hfull ▸ hread) }

end Cut

section Readable

variable {full : Bool} {a b : DataMessage} {ss js us : Bytes}

theorem IsReadable.topic_eq (h : a.IsReadable full) (hprint : b.topic.print = a.topic.main) :
    a.topic = b.topic := by
  have hsub : b.topic.sub = [] := by
    by_contra hb
    have hbrackets := print_brackets b.topic.main hb
    exact hb (h.main b.topic.main b.topic.sub (hprint.symm.trans hbrackets))
  rw [print_of_sub hsub] at hprint
  cases ha : a.topic with
  | mk main sub =>
    cases hb : b.topic with
    | mk main' sub' =>
      have hsuba := h.sub
      rw [ha] at hsuba hprint
      rw [hb] at hsub hprint
      rw [show sub = sub' from Eq.trans hsuba hsub.symm, show main' = main from hprint]

/-- Behind its time a readable message has no more digits before its data. -/
theorem IsReadable.tail_eq (h : a.IsReadable full) {t data : Bytes}
    (ht : ∀ d ∈ t, Decimal.isDigit d = true) (hcut : t ++ data = a.data) :
    t = [] ∧ a.data = data := by
  have hisolated := h.data
  rw [← hcut] at hisolated
  have hnil := hisolated.nil_of_digits (by decide) ht
  rw [hnil] at hcut
  exact ⟨hnil, hcut.symm⟩

theorem dateTime_eq
    (hjulian : Decimal.encode a.createDateTime.julian.toNat =
      Decimal.encode b.createDateTime.julian.toNat)
    (husecs : Decimal.encode a.createDateTime.totalUSecs.toNat =
      Decimal.encode b.createDateTime.totalUSecs.toNat) :
    a.createDateTime = b.createDateTime := by
  have hjulian' := UInt32.toNat_inj.mp (Decimal.encode_injective hjulian)
  have husecs' := UInt64.toNat_inj.mp (Decimal.encode_injective husecs)
  cases ha : a.createDateTime with
  | mk julian usecs =>
    cases hb : b.createDateTime with
    | mk julian' usecs' =>
      rw [ha, hb] at hjulian' husecs'
      rw [show julian = julian' from hjulian', show usecs = usecs' from husecs']

theorem streamed_true (hserial : Decimal.encode a.serial.toNat = ss)
    (hjulian : Decimal.encode a.createDateTime.julian.toNat = js)
    (husecs : Decimal.encode a.createDateTime.totalUSecs.toNat = us) :
    a.streamed true =
      a.type.toChar :: (a.topic.print ++ ss ++ a.source ++ js ++ us ++ a.data) := by
  simp [streamed, origin, hserial, hjulian, husecs]

theorem streamed_false (hjulian : Decimal.encode a.createDateTime.julian.toNat = js)
    (husecs : Decimal.encode a.createDateTime.totalUSecs.toNat = us) :
    a.streamed false = a.type.toChar :: (a.topic.print ++ js ++ us ++ a.data) := by
  simp [streamed, origin, hjulian, husecs]

theorem type_eq {as bs : Bytes} (h : a.type.toChar :: as = b.type.toChar :: bs) :
    a.type = b.type ∧ as = bs := by
  obtain ⟨htype, hrest⟩ := List.cons.inj h
  have hchar := congrArg MessageType.ofChar htype
  rw [MessageType.ofChar_toChar, MessageType.ofChar_toChar] at hchar
  exact ⟨Option.some.inj hchar, hrest⟩

theorem IsReadable.same_of_streamed_true (h : a.IsReadable true)
    (heq : a.streamed true = b.streamed true) : SameFields true a b := by
  have hsa := Decimal.encode_of_lt (h.serial rfl)
  have hxa := Decimal.encode_of_lt h.julian
  have hya := Decimal.encode_of_lt h.totalUSecs
  have hsdigit := Decimal.isDigit_ofNat (h.serial rfl)
  have hxdigit := Decimal.isDigit_ofNat h.julian
  obtain ⟨s', ts, hsb, hs'⟩ := Decimal.exists_first b.serial.toNat
  obtain ⟨p, x', hxb, hx'⟩ := Decimal.exists_last b.createDateTime.julian.toNat
  obtain ⟨y', ty, hyb, hy'⟩ := Decimal.exists_first b.createDateTime.totalUSecs.toNat
  rw [streamed_true hsa hxa hya, streamed_true hsb hxb hyb, print_of_sub h.sub] at heq
  obtain ⟨htype, hrest⟩ := type_eq heq
  generalize hs : UInt8.ofNat (48 + a.serial.toNat) = s at hsa hsdigit hrest
  generalize hx : UInt8.ofNat (48 + a.createDateTime.julian.toNat) = x at hxa hxdigit hrest
  generalize hy : UInt8.ofNat (48 + a.createDateTime.totalUSecs.toNat) = y at hya hrest
  have hnone := h.origin rfl
  have hcut : (a.topic.main ++ s :: a.source) ++ x :: y :: a.data =
      (b.topic.print ++ s' :: (ts ++ b.source ++ p)) ++ x' :: y' :: (ty ++ b.data) := by
    simpa [List.append_assoc] using hrest
  have hdata : Decimal.Isolated (y :: a.data) := h.data.cons_digit (by decide)
  rcases Decimal.cut_unique hdata hx' hy' hcut with ⟨hfront, rfl, rfl, htail⟩ | ⟨r, hmore⟩
  · obtain ⟨hprint, rfl, hsource⟩ := Decimal.digit_unique
      (fun c hc => hnone c (List.mem_append_left _ hc))
      (fun c hc => hnone c (List.mem_append_right _ hc)) hs' hfront.symm
    have hsub : ∀ c ∈ ts ++ b.source ++ p, Decimal.isDigit c = false := fun c hc =>
      hnone c (List.mem_append_right _ (hsource ▸ hc))
    have hts : ts = [] := Decimal.nil_of_no_digit
      (fun d hd => Decimal.isDigit_of_mem_encode (n := b.serial.toNat) (by simp [hsb, hd]))
      (fun d hd => hsub d (by simp [hd]))
    have hp : p = [] := Decimal.nil_of_no_digit
      (fun d hd => Decimal.isDigit_of_mem_encode (n := b.createDateTime.julian.toNat)
        (by simp [hxb, hd]))
      (fun d hd => hsub d (by simp [hd]))
    obtain ⟨hty, hdata'⟩ := h.tail_eq (fun d hd => Decimal.isDigit_of_mem_encode
      (n := b.createDateTime.totalUSecs.toNat) (by simp [hyb, hd])) htail
    rw [hts] at hsb
    rw [hp] at hxb
    rw [hty] at hyb
    have hserial := UInt64.toNat_inj.mp (Decimal.encode_injective (hsa.trans hsb.symm))
    have hsource' : b.source = a.source := by simpa [hts, hp] using hsource
    exact ⟨htype, h.topic_eq hprint, fun _ => hserial, fun _ => hsource'.symm,
      dateTime_eq (hxa.trans hxb.symm) (hya.trans hyb.symm), hdata'⟩
  · have hmain : a.topic.main.countP Decimal.isDigit = 0 := List.countP_eq_zero.mpr
      fun c hc => by simp [hnone c (List.mem_append_left _ hc)]
    have hsource : a.source.countP Decimal.isDigit = 0 := List.countP_eq_zero.mpr
      fun c hc => by simp [hnone c (List.mem_append_right _ hc)]
    have hcount := congrArg (List.countP Decimal.isDigit) hmore
    simp only [List.countP_append, List.countP_cons, List.countP_nil, hmain, hsource, hsdigit,
      hxdigit, hs', hx', hy', if_true] at hcount
    omega

theorem IsReadable.same_of_streamed_false (h : a.IsReadable false)
    (heq : a.streamed false = b.streamed false) : SameFields false a b := by
  have hxa := Decimal.encode_of_lt h.julian
  have hya := Decimal.encode_of_lt h.totalUSecs
  have hxdigit := Decimal.isDigit_ofNat h.julian
  obtain ⟨p, x', hxb, hx'⟩ := Decimal.exists_last b.createDateTime.julian.toNat
  obtain ⟨y', ty, hyb, hy'⟩ := Decimal.exists_first b.createDateTime.totalUSecs.toNat
  rw [streamed_false hxa hya, streamed_false hxb hyb, print_of_sub h.sub] at heq
  obtain ⟨htype, hrest⟩ := type_eq heq
  generalize hx : UInt8.ofNat (48 + a.createDateTime.julian.toNat) = x at hxa hxdigit hrest
  generalize hy : UInt8.ofNat (48 + a.createDateTime.totalUSecs.toNat) = y at hya hrest
  have hcut : a.topic.main ++ x :: y :: a.data =
      (b.topic.print ++ p) ++ x' :: y' :: (ty ++ b.data) := by
    simpa [List.append_assoc] using hrest
  have hdata : Decimal.Isolated (y :: a.data) := h.data.cons_digit (by decide)
  have hfront : Decimal.Isolated (a.topic.main ++ [x]) := (h.front rfl).append_digit (by decide)
  rcases Decimal.cut_unique hdata hx' hy' hcut with ⟨hmain, rfl, rfl, htail⟩ | ⟨r, hmore⟩
  · have hp : p = [] := by
      rw [← hmain] at hfront
      exact hfront.nil_of_digits_before hxdigit (fun d hd => Decimal.isDigit_of_mem_encode
        (n := b.createDateTime.julian.toNat) (by simp [hxb, hd]))
    obtain ⟨hty, hdata'⟩ := h.tail_eq (fun d hd => Decimal.isDigit_of_mem_encode
      (n := b.createDateTime.totalUSecs.toNat) (by simp [hyb, hd])) htail
    rw [hp] at hxb hmain
    rw [hty] at hyb
    rw [List.append_nil] at hmain
    have hdateTime := dateTime_eq (hxa.trans hxb.symm) (hya.trans hyb.symm)
    exact ⟨htype, h.topic_eq hmain, fun hfull => absurd hfull (by decide),
      fun hfull => absurd hfull (by decide), hdateTime, hdata'⟩
  · have hnot := Decimal.isolated_iff.mp hfront _ x' y' r hmore hx'
    rw [hy'] at hnot
    cases hnot

theorem IsReadable.same_of_streamed (h : a.IsReadable full)
    (heq : a.streamed full = b.streamed full) : SameFields full a b := by
  cases full with
  | true => exact h.same_of_streamed_true heq
  | false => exact h.same_of_streamed_false heq

end Readable

section Widths

variable {full : Bool} {a b : DataMessage}

/-- The lengths of the parts in front of the data. -/
def widths (full : Bool) (m : DataMessage) : List Nat :=
  [m.topic.main.length, m.topic.sub.length, (Decimal.encode m.createDateTime.julian.toNat).length,
    (Decimal.encode m.createDateTime.totalUSecs.toNat).length] ++
  if full then [(Decimal.encode m.serial.toNat).length, m.source.length] else []

theorem topic_eq_of_print {s t : Topic} (hmain : s.main.length = t.main.length)
    (hsub : s.sub.length = t.sub.length) (h : s.print = t.print) : s = t := by
  cases s with
  | mk main sub =>
    cases t with
    | mk main' sub' =>
      cases sub with
      | nil =>
        have hnil : sub' = [] := List.length_eq_zero_iff.mp hsub.symm
        rw [hnil] at h ⊢
        rw [show main = main' from h]
      | cons c cs =>
        have hne : sub' ≠ [] := List.ne_nil_of_length_eq_add_one hsub.symm
        rw [print_brackets main (List.cons_ne_nil c cs), print_brackets main' hne,
          List.append_assoc, List.append_assoc] at h
        obtain ⟨hmain', hrest⟩ := List.append_inj h hmain
        have hsub' := List.append_cancel_right (List.cons.inj hrest).2
        rw [hmain', hsub']

theorem print_length {s t : Topic} (hmain : s.main.length = t.main.length)
    (hsub : s.sub.length = t.sub.length) : s.print.length = t.print.length := by
  have hempty : s.sub.isEmpty = t.sub.isEmpty := by
    rw [Bool.eq_iff_iff, List.isEmpty_iff_length_eq_zero, List.isEmpty_iff_length_eq_zero, hsub]
  rw [Topic.print, Topic.print, hempty]
  split
  · exact hmain
  · simp [hmain, hsub]

/-- Two messages cut in the same way are read in the same way. -/
theorem same_of_widths (hwidths : a.widths full = b.widths full)
    (heq : a.streamed full = b.streamed full) : SameFields full a b := by
  simp only [widths, List.cons_append, List.nil_append, List.cons.injEq] at hwidths
  obtain ⟨hmain, hsub, hjulian, husecs, horigin⟩ := hwidths
  have horiginLength : (a.origin full).length = (b.origin full).length := by
    cases full with
    | false => rfl
    | true =>
      simp only [if_true, List.cons.injEq, and_true] at horigin
      simp [origin, horigin.1, horigin.2]
  have hprint := print_length hmain hsub
  have hstreamed : a.type.toChar :: (_ ++ _ ++ _ ++ _ ++ _) =
    b.type.toChar :: (_ ++ _ ++ _ ++ _ ++ _) := heq
  obtain ⟨htype, hrest⟩ := type_eq hstreamed
  obtain ⟨hfront, hdata⟩ := List.append_inj hrest (by
    simp [hprint, horiginLength, hjulian, husecs])
  obtain ⟨hfront, husecs⟩ := List.append_inj' hfront husecs
  obtain ⟨hfront, hjulian⟩ := List.append_inj' hfront hjulian
  obtain ⟨hprint, horigin'⟩ := List.append_inj hfront hprint
  have hrestored : full = true → a.serial = b.serial ∧ a.source = b.source := by
    rintro rfl
    simp only [if_true, List.cons.injEq, and_true] at horigin
    obtain ⟨hserial, hsource⟩ := List.append_inj horigin' horigin.1
    exact ⟨UInt64.toNat_inj.mp (Decimal.encode_injective hserial), hsource⟩
  exact ⟨htype, topic_eq_of_print hmain hsub hprint, fun h => (hrestored h).1,
    fun h => (hrestored h).2, dateTime_eq hjulian husecs, hdata⟩

end Widths

/-- What goes into the checksum of a message stands for its fields alone exactly if the message
is readable; messages whose parts have the same lengths are always told apart. -/
theorem checksum_eq_iff {Digest : Type} {md5 : Bytes → Digest} (hmd5 : Function.Injective md5)
    (full : Bool) (a : DataMessage) :
    ((∀ b, a.checksum md5 full = b.checksum md5 full ↔ SameFields full a b) ↔
      a.IsReadable full) ∧
    ∀ b, a.widths full = b.widths full →
      (a.checksum md5 full = b.checksum md5 full ↔ SameFields full a b) := by
  have hdigest : ∀ b : DataMessage, a.checksum md5 full = b.checksum md5 full ↔
      a.streamed full = b.streamed full := fun b => hmd5.eq_iff
  refine ⟨⟨fun h => ?_, fun h b => ?_⟩, fun b hwidths => ?_⟩
  · apply isReadable_of_readable
    intro b hb
    exact (h b).mp ((hdigest b).mpr hb.symm)
  · rw [hdigest]
    exact ⟨h.same_of_streamed, SameFields.streamed⟩
  · rw [hdigest]
    exact ⟨same_of_widths hwidths, SameFields.streamed⟩

/-- A message to "foo" published at some time of a day. -/
def published (totalUSecs : UInt64) (data : Bytes) : DataMessage where
  type := .plainData
  topic := { main := [0x66, 0x6f, 0x6f] }
  source := [0x68]
  serial := 1
  createDateTime := ⟨2460000, totalUSecs⟩
  data := data

/-- Two messages of the same hour. -/
theorem checksum_eq_iff_published :
    (published 3600000000 [0x31]).checksum id true =
        (published 3600000001 [0x31]).checksum id true ↔
      SameFields true (published 3600000000 [0x31]) (published 3600000001 [0x31]) :=
  (checksum_eq_iff Function.injective_id true (published 3600000000 [0x31])).2
    (published 3600000001 [0x31]) (by decide +kernel)

/-- "1" published at one o'clock has the checksum of nothing published a microsecond after ten. -/
theorem not_checksum_eq_iff :
    ¬ ∀ (Digest : Type) (md5 : Bytes → Digest), Function.Injective md5 →
      ∀ (full : Bool) (a b : DataMessage),
        a.checksum md5 full = b.checksum md5 full ↔ SameFields full a b := by
  intro h
  have hsame := (h Bytes id Function.injective_id true (published 3600000000 [0x31])
    (published 36000000001 [])).mp (by decide +kernel)
  exact absurd hsame.data (by decide)

end DataMessage

end TntPub
