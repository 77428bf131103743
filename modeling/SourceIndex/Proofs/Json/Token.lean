import Mathlib.Data.List.Basic
import SourceIndex.Proofs.Json.Grammar

/-!
# Readers of white space, numbers, strings and words

`Reads` says of a reader at a text what comes of it: a piece of a grammar is taken off the front, or a
number stands there with more digits than are read, or more is opened there than there is room for. In
the other direction a piece is read whole where what follows ends it: for a number nothing but `Ends`
may follow, for a string anything may.
-/

namespace SourceIndex.Json

variable {α β : Type} {t u rest : Text}

/-! ## White space -/

theorem IsGap.append {g h : Text} (hg : IsGap g) (hh : IsGap h) : IsGap (g ++ h) := by
  intro c hc
  exact (List.mem_append.mp hc).elim (hg c) (hh c)

theorem IsGap.nil : IsGap [] := by
  intro c hc
  cases hc

theorem exists_gap (t : Text) : ∃ g u, IsGap g ∧ t = g ++ u ∧ skipGap t = u :=
  ⟨t.takeWhile isGap, _, List.all_eq_true.mp List.all_takeWhile,
    List.takeWhile_append_dropWhile.symm, rfl⟩

theorem skipGap_append {g : Text} (hg : IsGap g) (t : Text) : skipGap (g ++ t) = skipGap t :=
  List.dropWhile_append_of_pos hg

theorem skipGap_cons {c : Char} (hc : isGap c = false) (t : Text) : skipGap (c :: t) = c :: t :=
  List.dropWhile_cons_of_neg (by simp [hc])

theorem skipGap_eq_nil_iff : skipGap t = [] ↔ IsGap t := by
  constructor
  · intro h
    obtain ⟨g, u, hg, rfl, hu⟩ := exists_gap t
    obtain rfl := hu.symm.trans h
    rwa [List.append_nil]
  · intro h
    rw [← List.append_nil t, skipGap_append h]
    rfl

/-! ## Digits -/

/-- The text does not go on with a digit. -/
def EndsDigits (t : Text) : Prop :=
  ∀ c ∈ t.head?, c.isDigit = false

theorem readDigits_eq_some_iff {ds : Text} :
    readDigits t = some (ds, rest) ↔ t = ds ++ rest ∧ IsDigits ds ∧ EndsDigits rest := by
  constructor
  · intro h
    simp only [readDigits] at h
    split at h
    · cases h
    · next hne =>
      obtain ⟨rfl, rfl⟩ := Prod.mk.inj (Option.some.inj h)
      refine ⟨List.takeWhile_append_dropWhile.symm, ⟨by simpa using hne,
        List.all_eq_true.mp List.all_takeWhile⟩, ?_⟩
      intro c hc
      have hstop := List.head?_dropWhile_not Char.isDigit t
      rw [Option.mem_def.mp hc] at hstop
      simpa using hstop
  · rintro ⟨rfl, hds, hrest⟩
    have hstop : rest.takeWhile Char.isDigit = [] ∧ rest.dropWhile Char.isDigit = rest := by
      cases rest with
      | nil => simp
      | cons c rest => simp [hrest c rfl]
    rw [readDigits, List.takeWhile_append_of_pos hds.isDigit, List.dropWhile_append_of_pos hds.isDigit,
      hstop.1, hstop.2, List.append_nil, if_neg (by simpa using hds.ne_nil)]

theorem readWhole_eq_some_iff {ds : Text} :
    readWhole t = some (ds, rest) ↔
      t = ds ++ rest ∧ IsWhole ds ∧ (ds ≠ ['0'] → EndsDigits rest) := by
  constructor
  · intro h
    unfold readWhole at h
    split at h
    · obtain ⟨rfl, rfl⟩ := Prod.mk.inj (Option.some.inj h)
      exact ⟨rfl, ⟨⟨by simp, by simp⟩, fun _ => rfl⟩, fun hne => (hne rfl).elim⟩
    · next hzero =>
      obtain ⟨rfl, hds, hrest⟩ := readDigits_eq_some_iff.mp h
      refine ⟨rfl, ⟨hds, fun hhead => ?_⟩, fun _ => hrest⟩
      obtain ⟨ds, rfl⟩ := List.head?_eq_some_iff.mp hhead
      exact (hzero _ rfl).elim
  · rintro ⟨rfl, hds, hrest⟩
    unfold readWhole
    split
    · next heq =>
      have hhead : ds.head? = some '0' := by
        cases ds with
        | nil => exact (hds.isDigits.ne_nil rfl).elim
        | cons c ds => rw [(List.cons.inj heq).1, List.head?_cons]
      obtain rfl := hds.eq_zero hhead
      obtain rfl : rest = _ := (List.cons.inj heq).2
      rfl
    · next hzero =>
      refine readDigits_eq_some_iff.mpr ⟨rfl, hds.isDigits, hrest ?_⟩
      rintro rfl
      exact hzero _ rfl

/-! ## Fractions and exponents -/

/-- What comes of a reader of a part that may be missing. -/
theorem exists_part {found : Option (α × Text)} {G : Text → α → Prop} {missing : α}
    (hnone : G [] missing)
    (hsome : ∀ x rest, found = some (x, rest) → ∃ s, s ≠ [] ∧ t = s ++ rest ∧ G s x) :
    ∃ s x rest, found.getD (missing, t) = (x, rest) ∧ t = s ++ rest ∧ G s x ∧
      (found.isNone = true ↔ s = []) := by
  cases hfound : found with
  | none => exact ⟨[], missing, t, rfl, rfl, hnone, by simp⟩
  | some part =>
    obtain ⟨s, hne, ht, hs⟩ := hsome part.1 part.2 hfound
    exact ⟨s, part.1, part.2, rfl, ht, hs, by simp [hne]⟩

theorem exists_isFraction (t : Text) :
    ∃ s ds rest, (readFraction t).getD ([], t) = (ds, rest) ∧ t = s ++ rest ∧ IsFraction s ds ∧
      ((readFraction t).isNone = true ↔ s = []) := by
  refine exists_part .none fun ds rest h => ?_
  unfold readFraction at h
  split at h
  · obtain ⟨rfl, hds, -⟩ := readDigits_eq_some_iff.mp h
    exact ⟨_, by simp, rfl, .digits hds⟩
  · cases h

theorem exists_isExponent (t : Text) :
    ∃ s power rest, (readExponent t).getD (0, t) = (power, rest) ∧ t = s ++ rest ∧
      IsExponent s power ∧ ((readExponent t).isNone = true ↔ s = []) := by
  refine exists_part .none fun power rest h => ?_
  unfold readExponent at h
  split at h
  · split at h
    · next e t he =>
      have he : e = 'e' ∨ e = 'E' := by simpa using he
      obtain ⟨⟨ds, r⟩, hds, hpair⟩ := Option.map_eq_some_iff.mp h
      obtain ⟨rfl, rfl⟩ := Prod.mk.inj hpair
      split at hds
      · obtain ⟨rfl, hds, -⟩ := readDigits_eq_some_iff.mp hds
        exact ⟨_, by simp, rfl, .minus he hds⟩
      · obtain ⟨rfl, hds, -⟩ := readDigits_eq_some_iff.mp hds
        exact ⟨_, by simp, rfl, .plus he hds⟩
      · obtain ⟨rfl, hds, -⟩ := readDigits_eq_some_iff.mp hds
        exact ⟨_, by simp, rfl, .digits he hds⟩
    · cases h
  · cases h

/-- What may stand behind a value: nothing, white space, or a mark of what the value is part of. -/
def Ends (t : Text) : Prop :=
  ∀ c ∈ t.head?, isGap c = true ∨ c ∈ [',', ']', '\x7d']

theorem Ends.gap {g : Text} (hg : IsGap g) : Ends g :=
  fun _ hc => .inl (hg _ (List.mem_of_mem_head? hc))

theorem Ends.of_gap {g : Text} (hg : IsGap g) {c : Char} (hc : c ∈ [',', ']', '\x7d']) :
    Ends (g ++ c :: t) := by
  intro d hd
  cases g with
  | nil => cases hd; exact .inr hc
  | cons e g => cases hd; exact .inl (hg _ List.mem_cons_self)

theorem Ends.head (h : Ends t) {c : Char} (hc : c ∈ t.head?) :
    c.isDigit = false ∧ c ≠ '.' ∧ c ≠ 'e' ∧ c ≠ 'E' := by
  have hmem : c ∈ [' ', '\t', '\n', '\r', ',', ']', '\x7d'] := by
    rcases h c hc with hgap | hmem
    · simp only [isGap, Bool.or_eq_true, beq_iff_eq] at hgap
      grind
    · grind
  have hall : ∀ c ∈ [' ', '\t', '\n', '\r', ',', ']', '\x7d'],
      c.isDigit = false ∧ c ≠ '.' ∧ c ≠ 'e' ∧ c ≠ 'E' := by simp
  exact hall c hmem

theorem IsDigits.exists_cons {ds : Text} (h : IsDigits ds) :
    ∃ d es, ds = d :: es ∧ d.isDigit = true := by
  cases ds with
  | nil => exact (h.ne_nil rfl).elim
  | cons d es => exact ⟨d, es, rfl, h.isDigit d List.mem_cons_self⟩

theorem readExponent_append {s : Text} {power : Int} (h : IsExponent s power)
    (hrest : Ends rest) :
    (readExponent (s ++ rest)).getD (0, s ++ rest) = (power, rest) ∧
      ((readExponent (s ++ rest)).isNone = true ↔ s = []) := by
  have hdigits : ∀ {ds : Text}, IsDigits ds → readDigits (ds ++ rest) = some (ds, rest) :=
    fun hds => readDigits_eq_some_iff.mpr ⟨rfl, hds, fun c hc => (hrest.head hc).1⟩
  cases h with
  | none =>
    have hread : readExponent rest = none := by
      unfold readExponent
      split
      · next c t =>
        obtain ⟨-, -, he, hE⟩ := hrest.head (c := c) rfl
        exact if_neg (by simp [he, hE])
      · rfl
    simp [hread]
  | @digits e ds he hds =>
    -- without a sign the third case of the reader applies, since a digit is no sign
    have hsign : ∀ c ∈ ['-', '+'], ∀ t, ds ++ rest ≠ c :: t := by
      intro c hc t heq
      have hnot : ∀ c ∈ ['-', '+'], c.isDigit = false := by simp
      obtain ⟨d, es, rfl, hd⟩ := hds.exists_cons
      obtain rfl := (List.cons.inj heq).1
      exact Bool.false_ne_true ((hnot _ hc).symm.trans hd)
    have hread : readExponent (e :: (ds ++ rest)) = some (↑(digitsValue ds), rest) := by
      rw [readExponent, if_pos (by simpa using he), hdigits hds]
      · rfl
      · exact hsign '-' (by simp)
      · exact hsign '+' (by simp)
    simp [hread]
  | @plus e ds he hds =>
    have hread : readExponent (e :: '+' :: (ds ++ rest)) = some (↑(digitsValue ds), rest) := by
      rw [readExponent, if_pos (by simpa using he)]
      simp only [hdigits hds]
      rfl
    simp [hread]
  | @minus e ds he hds =>
    have hread : readExponent (e :: '-' :: (ds ++ rest)) = some (-↑(digitsValue ds), rest) := by
      rw [readExponent, if_pos (by simpa using he)]
      simp only [hdigits hds]
      rfl
    simp [hread]

theorem readFraction_append {s ds : Text} (h : IsFraction s ds)
    (hrest : ∀ c ∈ rest.head?, c.isDigit = false ∧ c ≠ '.') :
    (readFraction (s ++ rest)).getD ([], s ++ rest) = (ds, rest) ∧
      ((readFraction (s ++ rest)).isNone = true ↔ s = []) := by
  cases h with
  | none =>
    have hread : readFraction rest = none := by
      unfold readFraction
      split
      · exact ((hrest '.' rfl).2 rfl).elim
      · rfl
    simp [hread]
  | digits hds =>
    have hread : readFraction ('.' :: (ds ++ rest)) = some (ds, rest) :=
      readDigits_eq_some_iff.mpr ⟨rfl, hds, fun c hc => (hrest c hc).1⟩
    simp [hread]

/-! ## Numbers -/

/-- Reads a number from after its sign: `readNumber` with both signs as one case. -/
def readUnsigned (negative : Bool) (t : Text) : Read Json :=
  match readWhole t with
  | none => .error .malformed
  | some (whole, t) =>
    let fraction := readFraction t
    let (decimals, t) := fraction.getD ([], t)
    let exponent := readExponent t
    let (power, t) := exponent.getD (0, t)
    if fraction.isNone && exponent.isNone then
      if Text.maxDigits < whole.length then .error (.tooManyDigits whole.length)
      else
        let n := digitsValue whole
        .ok (.integer (if negative then -(n : Int) else n), t)
    else
      let x := Binary.binary64.ofDecimal negative (digitsValue (whole ++ decimals))
        (power - decimals.length)
      .ok (.real x, t)

theorem readNumber_minus (t : Text) : readNumber ('-' :: t) = readUnsigned true t := rfl

theorem readNumber_of_head (h : t.head? ≠ some '-') : readNumber t = readUnsigned false t := by
  unfold readNumber
  split
  next heq =>
    split at heq
    · exact (h rfl).elim
    · cases heq
      rfl

/-- A number with more digits than an integer may have stands in the text. -/
def HasRun (t : Text) (count : Nat) : Prop :=
  Text.maxDigits < count ∧ ∃ ds, IsDigits ds ∧ ds.length = count ∧ ds <:+: t

theorem HasRun.prepend {n : Nat} (h : HasRun t n) (s : Text) : HasRun (s ++ t) n := by
  obtain ⟨hn, ds, hds, hlength, hinfix⟩ := h
  exact ⟨hn, ds, hds, hlength, hinfix.trans (List.suffix_append s t).isInfix⟩

/-- Whether an array or an object starts with a character. -/
def isOpening (c : Char) : Bool :=
  c == '[' || c == '\x7b'

/-- More arrays and objects start in a text than there is room for levels of them. -/
def Exceeds (room : Nat) (t : Text) : Prop :=
  room < t.countP isOpening

theorem exceeds_zero {c : Char} (hc : isOpening c = true) (t : Text) : Exceeds 0 (c :: t) := by
  rw [Exceeds, List.countP_cons_of_pos hc]
  exact Nat.succ_pos _

theorem Exceeds.prepend {room : Nat} (h : Exceeds room t) (s : Text) : Exceeds room (s ++ t) := by
  rw [Exceeds, List.countP_append]
  exact Nat.lt_add_left _ h

/-- What comes of reading the front of a text: a piece of the grammar is taken off, or a number has too
many digits, or there is not enough room. -/
def Reads (room : Nat) (G : Text → α → Prop) (t : Text) : Read α → Prop
  | .ok (x, rest) => ∃ s, t = s ++ rest ∧ G s x
  | .error (.tooManyDigits n) => HasRun t n
  | .error (.tooDeep _) => Exceeds room t
  | .error .malformed => True

variable {room : Nat}

/-- An error tells of the text and not of what was to be read. -/
theorem Reads.error {G : Text → α → Prop} {H : Text → β → Prop} {e : ReadError}
    (h : Reads room G t (.error e)) (s : Text) : Reads room H (s ++ t) (.error e) := by
  cases e with
  | malformed => trivial
  | tooManyDigits n => exact HasRun.prepend h s
  | tooDeep container => exact Exceeds.prepend h s

theorem Reads.prepend {G H : Text → α → Prop} {r : Read α} (h : Reads room G t r)
    (s : Text) (hprepend : ∀ u x, G u x → H (s ++ u) x) :
    Reads room H (s ++ t) r := by
  match r, h with
  | .ok (x, rest), ⟨u, hu, hx⟩ => exact ⟨s ++ u, by rw [hu, List.append_assoc], hprepend u x hx⟩
  | .error e, h => exact h.error s

theorem Reads.map {G : Text → α → Prop} {H : Text → β → Prop} {r : Read α}
    (h : Reads room G t r) {f : α → β} (hmap : ∀ u x, G u x → H u (f x)) :
    Reads room H t (r.map fun p => (f p.1, p.2)) := by
  match r, h with
  | .ok (x, rest), ⟨u, hu, hx⟩ => exact ⟨u, hu, hmap u x hx⟩
  | .error e, h => exact h.error []

/-- Behind an opening there is room for one level less. -/
theorem Reads.nest {G H : Text → α → Prop} {r : Read α} (h : Reads room G t r) {c : Char}
    (hc : isOpening c = true) (s : Text) (hprepend : ∀ u x, G u x → H (c :: s ++ u) x) :
    Reads (room + 1) H (c :: s ++ t) r := by
  match r, h with
  | .ok (x, rest), ⟨u, hu, hx⟩ =>
    exact ⟨c :: s ++ u, by rw [hu, List.append_assoc], hprepend u x hx⟩
  | .error (.tooDeep _), h =>
    change room + 1 < (c :: (s ++ t)).countP isOpening
    rw [List.countP_cons_of_pos hc]
    exact Nat.succ_lt_succ (Exceeds.prepend h s)
  | .error (.tooManyDigits n), h => exact HasRun.prepend h (c :: s)
  | .error .malformed, _ => trivial

theorem reads_readUnsigned (negative : Bool) (t : Text) :
    Reads room (fun s value => ∀ sign, IsSign sign negative → IsNumber (sign ++ s) value) t
      (readUnsigned negative t) := by
  unfold readUnsigned
  split
  · trivial
  · next whole u hread =>
    obtain ⟨rfl, hwhole, -⟩ := readWhole_eq_some_iff.mp hread
    obtain ⟨fraction, decimals, v, hv, rfl, hfraction, hnone⟩ := exists_isFraction u
    obtain ⟨exponent, power, w, hw, rfl, hexponent, hnone'⟩ := exists_isExponent v
    simp only [hv, hw]
    split
    · next hinteger =>
      obtain ⟨rfl, rfl⟩ : fraction = [] ∧ exponent = [] := by
        simpa only [Bool.and_eq_true, hnone, hnone'] using hinteger
      split
      · next hlong =>
        exact ⟨hlong, whole, hwhole.isDigits, rfl, (List.prefix_append _ _).isInfix⟩
      · next hlong =>
        exact ⟨whole, rfl, fun sign hsign => .integer hsign hwhole (Nat.not_lt.mp hlong)⟩
    · next hreal =>
      rw [Bool.and_eq_true, hnone, hnone', Classical.not_and_iff_not_or_not] at hreal
      exact ⟨whole ++ (fraction ++ exponent), by simp, fun sign hsign =>
        .real hsign hwhole hfraction hexponent hreal⟩

theorem reads_readNumber (t : Text) : Reads room IsNumber t (readNumber t) := by
  by_cases hhead : t.head? = some '-'
  · obtain ⟨u, rfl⟩ := List.head?_eq_some_iff.mp hhead
    rw [readNumber_minus]
    exact (reads_readUnsigned true u).prepend ['-'] fun s value h => h _ .minus
  · rw [readNumber_of_head hhead]
    exact (reads_readUnsigned false t).prepend [] fun s value h => h _ .none

theorem IsExponent.head {s : Text} {power : Int} (h : IsExponent s power) (hrest : Ends rest) :
    ∀ c ∈ (s ++ rest).head?, c.isDigit = false ∧ c ≠ '.' := by
  have hmark : ∀ c : Char, c = 'e' ∨ c = 'E' → c.isDigit = false ∧ c ≠ '.' := by
    rintro c (rfl | rfl) <;> decide
  intro c hc
  cases h with
  | none =>
    obtain ⟨hdigit, hpoint, -⟩ := hrest.head hc
    exact ⟨hdigit, hpoint⟩
  | digits he | plus he | minus he =>
    cases hc
    exact hmark _ he

theorem IsFraction.head {s ds : Text} (h : IsFraction s ds)
    (hrest : ∀ c ∈ rest.head?, c.isDigit = false ∧ c ≠ '.') : EndsDigits (s ++ rest) := by
  intro c hc
  cases h with
  | none => exact (hrest c hc).1
  | digits => cases hc; decide

theorem readUnsigned_append {whole fraction decimals exponent : Text} {power : Int}
    (hwhole : IsWhole whole) (hfraction : IsFraction fraction decimals)
    (hexponent : IsExponent exponent power) (hrest : Ends rest) (negative : Bool) :
    readUnsigned negative (whole ++ (fraction ++ (exponent ++ rest))) =
      if fraction = [] ∧ exponent = [] then
        if Text.maxDigits < whole.length then .error (.tooManyDigits whole.length)
        else .ok (.integer (if negative then -(digitsValue whole : Int) else digitsValue whole), rest)
      else
        .ok (.real (Binary.binary64.ofDecimal negative (digitsValue (whole ++ decimals))
          (power - decimals.length)), rest) := by
  have hhead := hexponent.head hrest
  obtain ⟨hf, hf'⟩ := readFraction_append hfraction hhead
  obtain ⟨he, he'⟩ := readExponent_append hexponent hrest
  have hread : readWhole (whole ++ (fraction ++ (exponent ++ rest))) =
      some (whole, fraction ++ (exponent ++ rest)) :=
    readWhole_eq_some_iff.mpr ⟨rfl, hwhole, fun _ => hfraction.head hhead⟩
  simp only [readUnsigned, hread, hf, he, Bool.and_eq_true, hf', he']

theorem readNumber_sign {sign whole : Text} {negative : Bool} (hsign : IsSign sign negative)
    (hwhole : IsWhole whole) (t : Text) :
    readNumber (sign ++ (whole ++ t)) = readUnsigned negative (whole ++ t) := by
  cases hsign with
  | minus => rfl
  | none =>
    refine readNumber_of_head fun hhead => ?_
    obtain ⟨d, ds, rfl, hd⟩ := hwhole.isDigits.exists_cons
    cases hhead
    exact absurd hd (by decide)

theorem readNumber_append {s : Text} {value : Json} (h : IsNumber s value) (hrest : Ends rest) :
    readNumber (s ++ rest) = .ok (value, rest) := by
  cases h with
  | @integer sign whole negative hsign hwhole hlength =>
    have happend : readUnsigned negative (whole ++ rest) = _ :=
      readUnsigned_append hwhole .none .none hrest negative
    rw [List.append_assoc, readNumber_sign hsign hwhole, happend, if_pos ⟨rfl, rfl⟩,
      if_neg (Nat.not_lt.mpr hlength)]
  | @real sign whole fraction decimals exponent negative power hsign hwhole hfraction hexponent hreal =>
    rw [List.append_assoc, List.append_assoc, readNumber_sign hsign hwhole, List.append_assoc,
      readUnsigned_append hwhole hfraction hexponent hrest,
      if_neg (Classical.not_and_iff_not_or_not.mpr hreal)]

/-- A number starts with a digit, or with a minus and a digit. -/
theorem IsNumber.head {s : Text} {value : Json} (h : IsNumber s value) :
    ∃ sign negative d u, IsSign sign negative ∧ d.isDigit = true ∧ s = sign ++ d :: u := by
  cases h with
  | integer hsign hwhole | real hsign hwhole =>
    obtain ⟨d, ds, rfl, hd⟩ := hwhole.isDigits.exists_cons
    exact ⟨_, _, d, _, hsign, hd, rfl⟩

theorem IsNumber.exists_cons {s : Text} {value : Json} (h : IsNumber s value) :
    ∃ c u, s = c :: u ∧ isGap c = false ∧ c ∉ ['"', '[', ']', '\x7b'] := by
  have hdigit : ∀ d : Char, d.isDigit = true → isGap d = false ∧ d ∉ ['"', '[', ']', '\x7b'] := by
    intro d hd
    have hmark : ∀ c ∈ [' ', '\t', '\n', '\r', '"', '[', ']', '\x7b'], c.isDigit = false := by simp
    have hnot : d ∉ [' ', '\t', '\n', '\r', '"', '[', ']', '\x7b'] := by
      intro hmem
      exact Bool.false_ne_true ((hmark d hmem).symm.trans hd)
    simp only [isGap]
    grind
  obtain ⟨sign, negative, d, u, hsign, hd, rfl⟩ := h.head
  cases hsign with
  | none => exact ⟨d, u, rfl, hdigit d hd⟩
  | minus => exact ⟨'-', d :: u, rfl, by decide⟩

/-! ## Strings -/

/-- A piece of a grammar with a character behind it. -/
def Until (c : Char) (G : Text → α → Prop) (s : Text) (x : α) : Prop :=
  ∃ u, s = u ++ [c] ∧ G u x

theorem Until.prepend {c : Char} {G : Text → α → Prop} {H : Text → β → Prop}
    {s p : Text} {x : α} {y : β} (h : Until c G s x)
    (hprepend : ∀ u, G u x → H (p ++ u) y) : Until c H (p ++ s) y := by
  obtain ⟨u, rfl, hu⟩ := h
  exact ⟨p ++ u, (List.append_assoc ..).symm, hprepend u hu⟩

theorem Reads.extend {c : Char} {G : Text → α → Prop} {H : Text → β → Prop}
    {r : Read α} (h : Reads room (Until c G) t r) (p : Text) {f : α → β}
    (hextend : ∀ u x, G u x → H (p ++ u) (f x)) :
    Reads room (Until c H) (p ++ t) (r.map fun pair => (f pair.1, pair.2)) :=
  (h.map (H := fun u y => Until c H (p ++ u) y)
    fun _ x hx => hx.prepend fun u => hextend u x).prepend p fun _ _ => id

theorem reads_readUnits (t : Text) : Reads room (Until '"' IsUnits) t (readUnits t) := by
  fun_induction readUnits t with
  | case1 rest => exact ⟨['"'], rfl, [], rfl, .nil⟩
  | case3 a b c d rest unit hunit ih =>
    exact ih.extend ['\\', 'u', a, b, c, d] fun u units h => .hex hunit h
  | case5 c rest hhex unit hunit ih =>
    exact ih.extend ['\\', c] fun u units h => .short hunit h
  | case7 c rest hquote hhex hescape hcontrol ih =>
    simp only [Bool.or_eq_true, decide_eq_true_eq, not_or, Nat.not_lt] at hcontrol
    exact ih.extend [c] fun u units h => .plain hquote hcontrol.1 hcontrol.2 h
  | case2 | case4 | case6 | case8 => trivial

theorem readUnits_append {s : Text} {units : List Nat} (h : IsUnits s units) (rest : Text) :
    readUnits (s ++ '"' :: rest) = .ok (units, rest) := by
  induction h with
  | nil => rfl
  | @plain c t units hquote hescape hcontrol _ ih =>
    rw [List.cons_append, readUnits, if_neg (by simp [hescape, Nat.not_lt.mpr hcontrol]), ih]
    · rfl
    · exact hquote
    · exact fun _ _ _ _ _ h _ => hescape h
    · exact fun _ _ h _ => hescape h
  | @short c unit t units hunit _ ih =>
    rw [List.cons_append, List.cons_append, readUnits, hunit]
    · simp only [ih]
      rfl
    · rintro _ _ _ _ _ rfl -
      cases hunit
  | @hex a b c d unit t units hunit _ ih =>
    simp only [List.cons_append, readUnits, hunit, ih]
    rfl

theorem reads_readString (t : Text) :
    Reads room (fun s codes => IsString ('"' :: s) codes) t (readString t) :=
  (reads_readUnits t).map fun _ _ h => by
    obtain ⟨u, rfl, h⟩ := h
    exact .quoted h

/-- A string has its opening quote in front. -/
theorem IsString.exists_cons {s : Text} {codes : List Nat} (h : IsString s codes) :
    ∃ u, s = '"' :: u ∧ ∀ rest, readString (u ++ rest) = .ok (codes, rest) := by
  obtain ⟨ht⟩ := h
  refine ⟨_, rfl, fun rest => ?_⟩
  rw [readString, List.append_assoc]
  exact congrArg _ (readUnits_append ht rest)

/-! ## Words -/

theorem exists_keyword {value : Json} (h : readKeyword? t = some (value, rest)) :
    ∃ s, t = s ++ rest ∧ (s, value) ∈ keywords := by
  obtain ⟨⟨word, v⟩, hmem, hword⟩ := List.exists_of_findSome?_eq_some h
  obtain ⟨u, hu, hpair⟩ := Option.map_eq_some_iff.mp hword
  obtain ⟨rfl, rfl⟩ := Prod.mk.inj hpair
  exact ⟨word, (List.append_eq_of_isPrefixOf?_eq_some hu).symm, hmem⟩

theorem eq_of_mem_keywords {s : Text} {value : Json} (h : (s, value) ∈ keywords) :
    s = ['n', 'u', 'l', 'l'] ∧ value = .null ∨ s = ['t', 'r', 'u', 'e'] ∧ value = .bool true ∨
      s = ['f', 'a', 'l', 's', 'e'] ∧ value = .bool false ∨
      s = ['N', 'a', 'N'] ∧ value = .real .nan ∨
      s = ['I', 'n', 'f', 'i', 'n', 'i', 't', 'y'] ∧ value = .real (.infinite false) ∨
      s = ['-', 'I', 'n', 'f', 'i', 'n', 'i', 't', 'y'] ∧ value = .real (.infinite true) := by
  simp only [keywords, List.mem_cons, List.not_mem_nil, or_false, Prod.mk.injEq] at h
  exact h

theorem readKeyword?_append {s : Text} {value : Json} (h : (s, value) ∈ keywords) (rest : Text) :
    readKeyword? (s ++ rest) = some (value, rest) := by
  rcases eq_of_mem_keywords h with ⟨rfl, rfl⟩ | ⟨rfl, rfl⟩ | ⟨rfl, rfl⟩ | ⟨rfl, rfl⟩ |
    ⟨rfl, rfl⟩ | ⟨rfl, rfl⟩ <;> rfl

/-- A word starts with a letter, or with a minus and the letter of infinity. -/
theorem exists_cons_of_mem_keywords {s : Text} {value : Json} (h : (s, value) ∈ keywords) :
    ∃ c u, s = c :: u ∧ c.isDigit = false ∧ (c = '-' → u.head? = some 'I') ∧
      isGap c = false ∧ c ∉ ['"', '[', ']', '\x7b'] := by
  rcases eq_of_mem_keywords h with ⟨rfl, -⟩ | ⟨rfl, -⟩ | ⟨rfl, -⟩ | ⟨rfl, -⟩ | ⟨rfl, -⟩ | ⟨rfl, -⟩ <;>
    exact ⟨_, _, rfl, by decide⟩

theorem readKeyword?_of_isNumber {s : Text} {value : Json} (h : IsNumber s value) (rest : Text) :
    readKeyword? (s ++ rest) = none := by
  obtain ⟨sign, negative, d, u, hsign, hd, rfl⟩ := h.head
  cases hfound : readKeyword? (sign ++ d :: u ++ rest) with
  | none => rfl
  | some found =>
    exfalso
    obtain ⟨word, heq, hmem⟩ := exists_keyword hfound
    obtain ⟨c, v, rfl, hletter, hminus, -⟩ := exists_cons_of_mem_keywords hmem
    cases hsign with
    | none =>
      obtain rfl := (List.cons.inj heq).1
      exact Bool.false_ne_true (hletter.symm.trans hd)
    | minus =>
      obtain ⟨rfl, hv⟩ := List.cons.inj heq
      obtain ⟨v, rfl⟩ := List.head?_eq_some_iff.mp (hminus rfl)
      obtain rfl := (List.cons.inj hv).1
      exact absurd hd (by decide)

end SourceIndex.Json
