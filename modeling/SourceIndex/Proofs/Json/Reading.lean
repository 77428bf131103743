import SourceIndex.Proofs.Json.Token

/-!
# Readers of values and whole texts

Values, items and members are read by one another, so `reads_all` has what each takes off a text by one
induction on the fuel, and `takes_all` has by another that what the grammar allows is taken. Together:
a text is read as a value just if the grammar makes it a text of that value, with the room that there is
(`read_eq_ok_iff`).
-/

namespace SourceIndex.Json

variable {room : Nat} {t rest : Text}

/-! ## Pieces of the grammar -/

theorem readValue_word {c : Char} (h : c ∉ ['"', '[', '\x7b']) (fuel : Nat) (t : Text) :
    readValue (fuel + 1) room (c :: t) =
      match readKeyword? (c :: t) with
      | some r => .ok r
      | none => readNumber (c :: t) := by
  simp only [List.mem_cons, List.not_mem_nil, or_false, not_or] at h
  unfold readValue
  split
  · next heq => exact (h.1 (List.cons.inj heq).1).elim
  · next heq => exact (h.2.1 (List.cons.inj heq).1).elim
  · next heq => exact (h.2.2 (List.cons.inj heq).1).elim
  · rfl

theorem IsGap.items {g s : Text} {items : List Json} (hg : IsGap g) (h : IsItems room s items) :
    IsItems room (g ++ s) items := by
  cases h with
  | last h =>
    obtain ⟨hbefore, h, hafter⟩ := h
    rw [← List.append_assoc]
    exact .last (.spaced (hg.append hbefore) h hafter)
  | more h hmore =>
    obtain ⟨hbefore, h, hafter⟩ := h
    rw [← List.append_assoc, ← List.append_assoc g]
    exact .more (.spaced (hg.append hbefore) h hafter) hmore

theorem IsGap.members {g s : Text} {members : List (List Nat × Json)} (hg : IsGap g)
    (h : IsMembers room s members) : IsMembers room (g ++ s) members := by
  cases h with
  | last hname h =>
    obtain ⟨hbefore, hn, hafter⟩ := hname
    rw [← List.append_assoc, ← List.append_assoc g]
    exact .last (.spaced (hg.append hbefore) hn hafter) h
  | more hname h hmore =>
    obtain ⟨hbefore, hn, hafter⟩ := hname
    rw [← List.append_assoc, ← List.append_assoc g]
    exact .more (.spaced (hg.append hbefore) hn hafter) h hmore

/-! ## What is read is of the grammar -/

/-- What comes of reading values with so much fuel. -/
def ReadsValues (fuel : Nat) : Prop :=
  ∀ room t, Reads room (IsValue room) t (readValue fuel room t)

/-- The same of items, with the bracket behind them. -/
def ReadsItems (fuel : Nat) : Prop :=
  ∀ room t, Reads room (Until ']' (IsItems room)) t (readItems fuel room t)

/-- All members when new ones of a grammar are put into others. -/
def IsMerged (members : List (List Nat × Json)) (G : Text → List (List Nat × Json) → Prop)
    (s : Text) (all : List (List Nat × Json)) : Prop :=
  ∃ new, G s new ∧ all = merge members new

/-- The same of members, with the brace behind them. -/
def ReadsMembers (fuel : Nat) : Prop :=
  ∀ room members t, Reads room (Until '\x7d' (IsMerged members (IsMembers room))) t
    (readMembers fuel room members t)

theorem readsValues_succ {fuel : Nat} (hitems : ReadsItems fuel) (hmembers : ReadsMembers fuel) :
    ReadsValues (fuel + 1) := by
  intro room t
  unfold readValue
  split
  · next rest =>
    exact ((reads_readString rest).map (H := fun s value => IsValue room ('"' :: s) value)
      fun _ _ h => .string h).prepend ['"'] fun _ _ => id
  · next rest =>
    cases room with
    | zero => exact exceeds_zero rfl rest
    | succ room =>
      obtain ⟨g, u, hg, rfl, hu⟩ := exists_gap rest
      simp only [hu]
      split
      · next v => exact ⟨'[' :: (g ++ [']']), by simp, .emptyArray hg⟩
      · next hclosing =>
        refine ((hitems room u).map (H := fun s value => IsValue (room + 1) ('[' :: (g ++ s)) value)
          fun s items h => ?_).nest (c := '[') rfl g fun _ _ => id
        obtain ⟨s, rfl, h⟩ := h
        rw [← List.append_assoc]
        exact .array (hg.items h)
  · next rest =>
    cases room with
    | zero => exact exceeds_zero rfl rest
    | succ room =>
      obtain ⟨g, u, hg, rfl, hu⟩ := exists_gap rest
      simp only [hu]
      split
      · next v => exact ⟨'\x7b' :: (g ++ ['\x7d']), by simp, .emptyObject hg⟩
      · next hclosing =>
        refine ((hmembers room [] u).map
          (H := fun s value => IsValue (room + 1) ('\x7b' :: (g ++ s)) value)
          fun s members h => ?_).nest (c := '\x7b') rfl g fun _ _ => id
        obtain ⟨s, rfl, new, h, rfl⟩ := h
        rw [← List.append_assoc]
        exact .object (hg.members h)
  · next hquote hbracket hbrace =>
    split
    · next found hfound =>
      obtain ⟨s, ht, hmem⟩ := exists_keyword hfound
      exact ⟨s, ht, .keyword hmem⟩
    · exact (reads_readNumber t).prepend [] fun _ _ h => .number h

theorem readsItems_succ {fuel : Nat} (hvalues : ReadsValues fuel) (hitems : ReadsItems fuel) :
    ReadsItems (fuel + 1) := by
  intro room t
  have hvalue := hvalues room t
  unfold readItems
  split
  · next e he =>
    rw [he] at hvalue
    exact hvalue.error []
  · next item rest hok =>
    rw [hok] at hvalue
    obtain ⟨s, rfl, hs⟩ := hvalue
    obtain ⟨after, u, hafter, rfl, hu⟩ := exists_gap rest
    have hitem : IsSpaced room (s ++ after) item := .spaced IsGap.nil hs hafter
    rw [hu]
    split
    · exact ⟨s ++ after ++ [']'], by simp, _, rfl, .last hitem⟩
    · next u =>
      obtain ⟨before, v, hbefore, rfl, hv⟩ := exists_gap u
      have hmore := (hitems room v).extend (H := IsItems room) (s ++ after ++ ',' :: before)
        fun w items h => by
          rw [List.append_assoc, List.cons_append]
          exact .more hitem (hbefore.items h)
      rw [hv]
      simpa using hmore
    · trivial

/-- Reads from after the colon of a member, whose name was read, to the end of the object. -/
def readMember (fuel room : Nat) (members : List (List Nat × Json)) (name : List Nat) (t : Text) :
    Read (List (List Nat × Json)) :=
  match readValue fuel room (skipGap t) with
  | .error e => .error e
  | .ok (value, rest) =>
    let members := put name value members
    match skipGap rest with
    | '\x7d' :: rest => .ok (members, rest)
    | ',' :: rest => readMembers fuel room members (skipGap rest)
    | _ => .error .malformed

theorem reads_readMember {fuel : Nat} (hvalues : ReadsValues fuel) (hmembers : ReadsMembers fuel)
    {n : Text} {name : List Nat} (hname : IsName n name) (members : List (List Nat × Json))
    (t : Text) :
    Reads room (Until '\x7d' (IsMerged members fun s new => IsMembers room (n ++ ':' :: s) new)) t
      (readMember fuel room members name t) := by
  obtain ⟨before, u, hbefore, rfl, hu⟩ := exists_gap t
  have hvalue := hvalues room u
  unfold readMember
  rw [hu]
  split
  · next e he =>
    rw [he] at hvalue
    exact hvalue.error before
  · next value rest hok =>
    rw [hok] at hvalue
    obtain ⟨s, rfl, hs⟩ := hvalue
    obtain ⟨after, v, hafter, rfl, hv⟩ := exists_gap rest
    have hvalue : IsSpaced room (before ++ (s ++ after)) value := .spaced hbefore hs hafter
    rw [hv]
    split
    · exact ⟨before ++ (s ++ after) ++ ['\x7d'], by simp, _, rfl, [(name, value)],
        .last hname hvalue, rfl⟩
    · next v =>
      obtain ⟨before', w, hbefore', rfl, hw⟩ := exists_gap v
      have hmore := (hmembers room (put name value members) w).prepend
        (H := Until '\x7d' (IsMerged members fun s new => IsMembers room (n ++ ':' :: s) new))
        (before ++ (s ++ after) ++ ',' :: before') fun u all h => h.prepend fun u h => by
          obtain ⟨new, hnew, rfl⟩ := h
          refine ⟨(name, value) :: new, ?_, rfl⟩
          simpa using IsMembers.more hname hvalue (hbefore'.members hnew)
      rw [hw]
      simpa using hmore
    · trivial

theorem readsMembers_succ {fuel : Nat} (hvalues : ReadsValues fuel)
    (hmembers : ReadsMembers fuel) : ReadsMembers (fuel + 1) := by
  intro room members t
  unfold readMembers
  split
  · next rest =>
    have hstring : Reads room _ rest (readString rest) := reads_readString rest
    split
    · next e he =>
      rw [he] at hstring
      exact hstring.error ['"']
    · next name rest hok =>
      rw [hok] at hstring
      obtain ⟨n, rfl, hn⟩ := hstring
      obtain ⟨after, u, hafter, rfl, hu⟩ := exists_gap rest
      have hname : IsName ('"' :: n ++ after) name := .spaced IsGap.nil hn hafter
      rw [hu]
      split
      · next u =>
        have hmember := (reads_readMember hvalues hmembers hname members u).prepend
          (H := Until '\x7d' (IsMerged members (IsMembers room))) ('"' :: n ++ after ++ [':'])
          fun s all h => h.prepend fun s h => by
            obtain ⟨new, hnew, rfl⟩ := h
            exact ⟨new, by simpa using hnew, rfl⟩
        have happend : '"' :: n ++ after ++ [':'] ++ u = '"' :: (n ++ (after ++ ':' :: u)) := by
          simp
        rwa [happend] at hmember
      · trivial
  · trivial

theorem reads_all (fuel : Nat) : ReadsValues fuel ∧ ReadsItems fuel ∧ ReadsMembers fuel := by
  induction fuel with
  | zero => exact ⟨fun _ _ => trivial, fun _ _ => trivial, fun _ _ _ => trivial⟩
  | succ fuel ih =>
    obtain ⟨hvalues, hitems, hmembers⟩ := ih
    exact ⟨readsValues_succ hitems hmembers, readsItems_succ hvalues hitems,
      readsMembers_succ hvalues hmembers⟩

/-! ## What is of the grammar is read -/

/-- The start of a value is neither white space nor the end of an array. -/
theorem IsValue.exists_cons {s : Text} {value : Json} (h : IsValue room s value) :
    ∃ c u, s = c :: u ∧ isGap c = false ∧ c ≠ ']' := by
  cases h with
  | keyword h =>
    obtain ⟨c, u, rfl, -, -, hgap, hc⟩ := exists_cons_of_mem_keywords h
    exact ⟨c, u, rfl, hgap, by grind⟩
  | number h =>
    obtain ⟨c, u, rfl, hgap, hc⟩ := h.exists_cons
    exact ⟨c, u, rfl, hgap, by grind⟩
  | string h =>
    obtain ⟨h⟩ := h
    exact ⟨_, _, rfl, by decide⟩
  | emptyArray | array | emptyObject | object => exact ⟨_, _, rfl, by decide⟩

theorem skipGap_value {before s : Text} {value : Json} (hbefore : IsGap before)
    (h : IsValue room s value) (t : Text) : skipGap (before ++ (s ++ t)) = s ++ t := by
  obtain ⟨c, u, rfl, hgap, -⟩ := h.exists_cons
  rw [skipGap_append hbefore, List.cons_append, skipGap_cons hgap]

/-- Values that are not longer than the fuel allows are read whole, where what follows ends them. -/
def TakesValues (fuel : Nat) : Prop :=
  ∀ room s value rest, IsValue room s value → s.length < fuel → Ends rest →
    readValue fuel room (s ++ rest) = .ok (value, rest)

/-- The same of items. White space before them was skipped, and the first step goes to their bracket. -/
def TakesItems (fuel : Nat) : Prop :=
  ∀ room s items rest, IsItems room s items → s.length + 1 < fuel →
    readItems fuel room (skipGap (s ++ ']' :: rest)) = .ok (items, rest)

/-- The same of members, which are put into others. -/
def TakesMembers (fuel : Nat) : Prop :=
  ∀ room s new members rest, IsMembers room s new → s.length + 1 < fuel →
    readMembers fuel room members (skipGap (s ++ '\x7d' :: rest)) = .ok (merge members new, rest)

theorem takesItems_succ {fuel : Nat} (hvalues : TakesValues fuel) (hitems : TakesItems fuel) :
    TakesItems (fuel + 1) := by
  intro room s items rest h hfuel
  cases h with
  | last h =>
    obtain ⟨hbefore, h, hafter⟩ := h
    simp only [List.length_append] at hfuel
    simp only [List.append_assoc, skipGap_value hbefore h, readItems]
    rw [hvalues _ _ _ _ h (by omega) (Ends.of_gap hafter (by decide))]
    simp only [skipGap_append hafter, skipGap_cons (c := ']') rfl]
  | more h hmore =>
    obtain ⟨hbefore, h, hafter⟩ := h
    simp only [List.length_append, List.length_cons] at hfuel
    simp only [List.append_assoc, List.cons_append, skipGap_value hbefore h, readItems]
    rw [hvalues _ _ _ _ h (by omega) (Ends.of_gap hafter (by decide))]
    simp only [skipGap_append hafter, skipGap_cons (c := ',') rfl]
    rw [hitems _ _ _ _ hmore (by omega)]
    rfl

theorem IsName.exists_cons {s : Text} {name : List Nat} (h : IsName s name) :
    ∃ u after, IsGap after ∧ (∀ t, skipGap (s ++ t) = '"' :: (u ++ (after ++ t))) ∧
      ∀ t, readString (u ++ t) = .ok (name, t) := by
  obtain ⟨hbefore, h, hafter⟩ := h
  obtain ⟨u, rfl, hread⟩ := h.exists_cons
  refine ⟨u, _, hafter, fun t => ?_, hread⟩
  rw [List.append_assoc, skipGap_append hbefore, List.cons_append, List.cons_append,
    skipGap_cons rfl, List.append_assoc]

theorem takesMembers_succ {fuel : Nat} (hvalues : TakesValues fuel)
    (hmembers : TakesMembers fuel) : TakesMembers (fuel + 1) := by
  intro room s new members rest h hfuel
  cases h with
  | last hname h =>
    obtain ⟨u, after, hafter, hskip, hread⟩ := hname.exists_cons
    obtain ⟨hbefore, h, hafter'⟩ := h
    simp only [List.length_append, List.length_cons] at hfuel
    simp only [List.append_assoc, List.cons_append, hskip, readMembers, hread,
      skipGap_append hafter, skipGap_cons (c := ':') rfl, skipGap_value hbefore h]
    rw [hvalues _ _ _ _ h (by omega) (Ends.of_gap hafter' (by decide))]
    simp only [skipGap_append hafter', skipGap_cons (c := '\x7d') rfl]
    rfl
  | more hname h hmore =>
    obtain ⟨u, after, hafter, hskip, hread⟩ := hname.exists_cons
    obtain ⟨hbefore, h, hafter'⟩ := h
    simp only [List.length_append, List.length_cons] at hfuel
    simp only [List.append_assoc, List.cons_append, hskip, readMembers, hread,
      skipGap_append hafter, skipGap_cons (c := ':') rfl, skipGap_value hbefore h]
    rw [hvalues _ _ _ _ h (by omega) (Ends.of_gap hafter' (by decide))]
    simp only [skipGap_append hafter', skipGap_cons (c := ',') rfl]
    rw [hmembers _ _ _ _ _ hmore (by omega)]
    rfl

theorem IsItems.skipGap {s : Text} {items : List Json} (h : IsItems room s items) (t : Text) :
    ∃ c u, Json.skipGap (s ++ t) = c :: u ∧ c ≠ ']' := by
  cases h with
  | last h | more h =>
    obtain ⟨hbefore, h, hafter⟩ := h
    obtain ⟨c, u, rfl, -, hc⟩ := h.exists_cons
    exact ⟨c, _, by simp only [List.append_assoc, skipGap_value hbefore h]; rfl, hc⟩

theorem IsMembers.skipGap {s : Text} {members : List (List Nat × Json)}
    (h : IsMembers room s members) (t : Text) : ∃ u, Json.skipGap (s ++ t) = '"' :: u := by
  cases h with
  | last hname | more hname =>
    obtain ⟨u, after, -, hskip, -⟩ := hname.exists_cons
    exact ⟨_, by rw [List.append_assoc, hskip]⟩

theorem takesValues_succ {fuel : Nat} (hitems : TakesItems fuel) (hmembers : TakesMembers fuel) :
    TakesValues (fuel + 1) := by
  intro room s value rest h hfuel hrest
  cases h with
  | keyword h =>
    obtain ⟨c, u, rfl, -, -, -, hc⟩ := exists_cons_of_mem_keywords h
    rw [List.cons_append, readValue_word (by grind), ← List.cons_append, readKeyword?_append h]
  | number h =>
    obtain ⟨c, u, rfl, -, hc⟩ := h.exists_cons
    rw [List.cons_append, readValue_word (by grind), ← List.cons_append,
      readKeyword?_of_isNumber h, readNumber_append h hrest]
  | string h =>
    obtain ⟨u, rfl, hread⟩ := h.exists_cons
    rw [List.cons_append, readValue, hread]
    rfl
  | emptyArray h =>
    simp only [List.cons_append, List.append_assoc, List.nil_append, readValue, skipGap_append h,
      skipGap_cons (c := ']') rfl]
  | @array room t items h =>
    simp only [List.length_cons, List.length_append, List.length_nil] at hfuel
    obtain ⟨c, u, hskip, hc⟩ := h.skipGap (']' :: rest)
    have hread := hitems _ _ _ rest h (by omega)
    rw [hskip] at hread
    simp only [List.cons_append, List.append_assoc, List.nil_append, readValue, hskip]
    -- what starts with an item does not start with the closing bracket
    split
    · next heq => exact (hc (List.cons.inj heq).1).elim
    · rw [hread]
      rfl
  | emptyObject h =>
    simp only [List.cons_append, List.append_assoc, List.nil_append, readValue, skipGap_append h,
      skipGap_cons (c := '\x7d') rfl]
  | @object room t members h =>
    simp only [List.length_cons, List.length_append, List.length_nil] at hfuel
    obtain ⟨u, hskip⟩ := h.skipGap ('\x7d' :: rest)
    have hread := hmembers _ _ _ [] rest h (by omega)
    rw [hskip] at hread
    simp only [List.cons_append, List.append_assoc, List.nil_append, readValue, hskip]
    exact congrArg (Except.map _) hread

theorem takes_all (fuel : Nat) : TakesValues fuel ∧ TakesItems fuel ∧ TakesMembers fuel := by
  induction fuel with
  | zero =>
    refine ⟨?_, ?_, ?_⟩
    · intro room s value rest _ hfuel
      omega
    · intro room s items rest _ hfuel
      omega
    · intro room s new members rest _ hfuel
      omega
  | succ fuel ih =>
    obtain ⟨hvalues, hitems, hmembers⟩ := ih
    exact ⟨takesValues_succ hitems hmembers, takesItems_succ hvalues hitems,
      takesMembers_succ hvalues hmembers⟩

/-! ## Whole texts -/

/-- A text is read as a value just if it is a text of that value, with room for the outermost level and
those inside it. -/
theorem read_eq_ok_iff {value : Json} :
    read room t = .ok value ↔ IsSpaced (room + 1) t value := by
  constructor
  · intro h
    obtain ⟨before, u, hbefore, rfl, hu⟩ := exists_gap t
    have hreads := (reads_all ((before ++ u).length + 1)).1 (room + 1) u
    unfold read at h
    rw [hu] at h
    split at h
    · cases h
    · next v rest hok =>
      rw [hok] at hreads
      obtain ⟨s, rfl, hs⟩ := hreads
      split at h
      · next hrest =>
        cases h
        exact .spaced hbefore hs (skipGap_eq_nil_iff.mp (List.isEmpty_iff.mp hrest))
      · cases h
  · intro h
    obtain @⟨_, before, s, after, value, hbefore, h, hafter⟩ := h
    have hfuel : s.length < (before ++ (s ++ after)).length + 1 := by
      simp only [List.length_append]
      omega
    unfold read
    rw [skipGap_value hbefore h, (takes_all _).1 _ s value after h hfuel (Ends.gap hafter)]
    simp only [skipGap_eq_nil_iff.mpr hafter]
    rfl

/-- Reading stops at once if a value cannot be read. -/
theorem reads_of_read_error {e : ReadError} (h : read room t = .error e) :
    Reads (room + 1) (IsValue (room + 1)) t (.error e) := by
  obtain ⟨before, u, hbefore, rfl, hu⟩ := exists_gap t
  have hreads := (reads_all ((before ++ u).length + 1)).1 (room + 1) u
  unfold read at h
  rw [hu] at h
  split at h
  · next e he =>
    cases h
    rw [he] at hreads
    exact hreads.error before
  · split at h <;> cases h
    trivial

/-- Reading stops for the number of digits only at a number with as many, and too many. -/
theorem hasRun_of_read {n : Nat} (h : read room t = .error (.tooManyDigits n)) : HasRun t n :=
  reads_of_read_error h

/-- Reading stops for want of room only in a text where more is opened than there is room for. -/
theorem exceeds_of_read {container : Container} (h : read room t = .error (.tooDeep container)) :
    Exceeds (room + 1) t :=
  reads_of_read_error h

end SourceIndex.Json
