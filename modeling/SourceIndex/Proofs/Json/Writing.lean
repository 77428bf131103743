import Mathlib.Data.List.Forall2
import SourceIndex.Json.Printer
import SourceIndex.Proofs.Json.Reading

/-!
# What is written is read back

A string is written as escapes and plain characters that spell its code units, so it is read back with
the halves of each pair joined (`read_quoted`), which is the string itself just if no two halves stand
side by side in it (`read_quoted_iff`). An object of such strings is written as an object of them, with
white space between (`isValue_prettyAt`).
-/

namespace SourceIndex.Json

variable {t : Text} {units : List Nat} {n : Nat}

/-! ## Escapes -/

theorem hexDigits_succ {width : Nat} (hwidth : 0 < width) (n : Nat) :
    Text.hexDigits (width + 1) n = Text.hexDigits width (n / 16) ++ [(n % 16).digitChar] := by
  simp only [Text.hexDigits]
  by_cases hn : n < 16
  · rw [Nat.toDigits_of_lt_base hn, Nat.div_eq_of_lt hn, Nat.mod_eq_of_lt hn, Nat.toDigits_zero,
      List.length_singleton, List.length_singleton, Nat.add_sub_cancel, ← List.replicate_succ',
      Nat.sub_add_cancel hwidth]
  · rw [Nat.toDigits_of_base_le (by decide) (Nat.not_lt.mp hn), List.length_append,
      List.length_singleton, Nat.add_sub_add_right, List.append_assoc]

theorem hexDigits_four (hn : n < 0x10000) : Text.hexDigits 4 n =
    [(n / 0x1000).digitChar, (n / 0x100 % 16).digitChar, (n / 0x10 % 16).digitChar,
      (n % 16).digitChar] := by
  have hone : Text.hexDigits 1 (n / 16 / 16 / 16) = [(n / 16 / 16 / 16).digitChar] := by
    rw [Text.hexDigits, Nat.toDigits_of_lt_base (by omega)]
    rfl
  rw [hexDigits_succ (by decide), hexDigits_succ (by decide), hexDigits_succ (by decide), hone]
  simp only [Nat.div_div_eq_div_mul, List.cons_append, List.nil_append]

theorem hexValue?_digitChar : ∀ d < 16, hexValue? d.digitChar = some d := by
  decide

theorem isUnits_escapeUnit (hn : n < 0x10000) (h : IsUnits t units) :
    IsUnits (escapeUnit n ++ t) (n :: units) := by
  rw [escapeUnit, hexDigits_four hn]
  refine .hex ?_ h
  simp only [hexQuad?, hexValue?_digitChar _ (by omega : n / 0x1000 < 16),
    hexValue?_digitChar _ (Nat.mod_lt _ (by decide : 16 > 0))]
  show some _ = some _
  congr 1
  omega

/-- The code units of a code point. -/
def unitsOf (n : Nat) : List Nat :=
  if n < 0x10000 then [n]
  else [0xd800 + (n - 0x10000) / 0x400, 0xdc00 + (n - 0x10000) % 0x400]

theorem isUnits_escapeCode (hn : n < 0x110000) (h : IsUnits t units) :
    IsUnits (escapeCode n ++ t) (unitsOf n ++ units) := by
  unfold escapeCode
  iterate 2
    split
    · next hcode => exact hcode ▸ .short rfl h
  split
  · next hquote hescape hplain =>
    simp only [Bool.and_eq_true, decide_eq_true_eq] at hplain
    have hvalid : n.isValidChar := .inl (by omega)
    have htoNat : (Char.ofNat n).toNat = n := by
      rw [Char.ofNat, dif_pos hvalid]
      rfl
    have hne {c : Char} (hc : n ≠ c.toNat) : Char.ofNat n ≠ c := by
      rintro rfl
      exact hc htoNat.symm
    rw [unitsOf, if_pos (by omega)]
    have hunits := IsUnits.plain (hne (c := '"') hquote) (hne (c := '\\') hescape) (by omega) h
    rwa [htoNat] at hunits
  iterate 5
    split
    · next hcode => exact hcode ▸ .short rfl h
  split
  · next hunit =>
    rw [unitsOf, if_pos hunit]
    exact isUnits_escapeUnit hunit h
  · next hpair =>
    rw [unitsOf, if_neg hpair, List.append_assoc]
    exact isUnits_escapeUnit (by omega) (isUnits_escapeUnit (by omega) h)

/-! ## Strings -/

theorem isUnits_escapes {codes : List Nat} (hcodes : ∀ n ∈ codes, n < 0x110000) :
    IsUnits (codes.flatMap escapeCode) (codes.flatMap unitsOf) := by
  induction codes with
  | nil => exact .nil
  | cons n codes ih =>
    rw [List.forall_mem_cons] at hcodes
    exact isUnits_escapeCode hcodes.1 (ih hcodes.2)

/-- A string is written as one whose pairs are joined. -/
theorem isString_quoted {codes : List Nat} (hcodes : ∀ n ∈ codes, n < 0x110000) :
    IsString (quoted codes) (joinPairs (codes.flatMap unitsOf)) :=
  .quoted (isUnits_escapes hcodes)

theorem IsString.isSpaced {codes : List Nat} (h : IsString t codes) (room : Nat) :
    IsSpaced room t (.string codes) := by
  have hspaced : IsSpaced room ([] ++ (t ++ [])) (.string codes) :=
    .spaced IsGap.nil (.string h) IsGap.nil
  rwa [List.append_nil] at hspaced

theorem read_quoted {codes : List Nat} (hcodes : ∀ n ∈ codes, n < 0x110000) (room : Nat) :
    read room (quoted codes) = .ok (.string (joinPairs (codes.flatMap unitsOf))) :=
  read_eq_ok_iff.mpr ((isString_quoted hcodes).isSpaced _)

/-- The two halves of a pair, one before the other. -/
def IsSplit (m n : Nat) : Prop :=
  0xd800 ≤ m ∧ m < 0xdc00 ∧ 0xdc00 ≤ n ∧ n < 0xe000

/-- Nowhere do the two halves of a pair stand one before the other. -/
def IsApart (codes : List Nat) : Prop :=
  codes.IsChain fun m n => ¬ IsSplit m n

/-- The first code unit is a second half only of itself. -/
theorem exists_unitsOf (hn : n < 0x110000) : ∃ unit units, unitsOf n = unit :: units ∧
    (0xdc00 ≤ unit → unit < 0xe000 → unit = n) := by
  unfold unitsOf
  split
  · exact ⟨n, [], rfl, fun _ _ => rfl⟩
  · exact ⟨_, _, rfl, fun _ _ => by omega⟩

theorem joinPairs_unitsOf (hn : n < 0x110000) (hpair : ¬ n < 0x10000) (units : List Nat) :
    joinPairs (unitsOf n ++ units) = n :: joinPairs units := by
  have hhigh : (n - 0x10000) / 0x400 < 0x400 := by omega
  have hlow : (n - 0x10000) % 0x400 < 0x400 := by omega
  have hcode : 0x10000 + (n - 0x10000) / 0x400 * 0x400 + (n - 0x10000) % 0x400 = n := by omega
  rw [unitsOf, if_neg hpair]
  generalize (n - 0x10000) / 0x400 = high at *
  generalize (n - 0x10000) % 0x400 = low at *
  have hhalves : (0xd800 ≤ 0xd800 + high && 0xd800 + high < 0xdc00 && 0xdc00 ≤ 0xdc00 + low &&
      0xdc00 + low < 0xe000) = true := by
    simp only [Bool.and_eq_true, decide_eq_true_eq]
    omega
  rw [List.cons_append, List.cons_append, List.nil_append, joinPairs, if_pos hhalves,
    Nat.add_sub_cancel_left, Nat.add_sub_cancel_left, hcode]

theorem joinPairs_of_not_isSplit {m : Nat} (hn : n < 0x110000) (h : ¬ IsSplit m n)
    (units : List Nat) :
    joinPairs (m :: (unitsOf n ++ units)) = m :: joinPairs (unitsOf n ++ units) := by
  obtain ⟨unit, rest, hunits, hsecond⟩ := exists_unitsOf hn
  rw [hunits, List.cons_append, joinPairs, if_neg]
  simp only [Bool.and_eq_true, decide_eq_true_eq]
  rintro ⟨⟨⟨hm, hm'⟩, hunit⟩, hunit'⟩
  obtain rfl := hsecond hunit hunit'
  exact h ⟨hm, hm', hunit, hunit'⟩

theorem joinPairs_of_isSplit {m : Nat} (h : IsSplit m n) (units : List Nat) :
    joinPairs (m :: (unitsOf n ++ units)) =
      (0x10000 + (m - 0xd800) * 0x400 + (n - 0xdc00)) :: joinPairs units := by
  obtain ⟨hm, hm', hn, hn'⟩ := h
  have hhalves : (0xd800 ≤ m && m < 0xdc00 && 0xdc00 ≤ n && n < 0xe000) = true := by
    simp [hm, hm', hn, hn']
  rw [unitsOf, if_pos (by omega), List.singleton_append, joinPairs, if_pos hhalves]

/-- Joining changes nothing just if there is nothing to be joined. -/
theorem joinPairs_flatMap_iff {codes : List Nat} (hcodes : ∀ n ∈ codes, n < 0x110000) :
    joinPairs (codes.flatMap unitsOf) = codes ↔ IsApart codes := by
  induction codes with
  | nil => exact iff_of_true rfl .nil
  | cons m codes ih =>
    rw [List.forall_mem_cons] at hcodes
    have hrest := ih hcodes.2
    -- a code beyond the first plane is joined again from its own units, any other is its own unit and
    -- may meet the unit behind it
    rw [List.flatMap_cons]
    by_cases hm : m < 0x10000
    · rw [unitsOf, if_pos hm, List.singleton_append]
      cases codes with
      | nil => exact iff_of_true rfl (.singleton m)
      | cons n codes =>
        rw [IsApart, List.isChain_cons_cons]
        rw [List.flatMap_cons] at hrest ⊢
        by_cases hsplit : IsSplit m n
        · rw [joinPairs_of_isSplit hsplit]
          refine iff_of_false (fun h => ?_) fun h => h.1 hsplit
          have := (List.cons.inj h).1
          omega
        · rw [joinPairs_of_not_isSplit (hcodes.2 n List.mem_cons_self) hsplit, List.cons.injEq,
            hrest]
          simp [hsplit, IsApart]
    · rw [joinPairs_unitsOf hcodes.1 hm, List.cons.injEq, hrest]
      have hfirst : ∀ n, ¬ IsSplit m n := fun n h => hm (by have := h.2.1; omega)
      cases codes with
      | nil => simp [IsApart]
      | cons n codes => simp [IsApart, hfirst]

/-- A string is read back as it was written just if no halves of a pair stand in it side by side. -/
theorem read_quoted_iff {room : Nat} {codes : List Nat} (hcodes : ∀ n ∈ codes, n < 0x110000) :
    read room (quoted codes) = .ok (.string codes) ↔ IsApart codes := by
  rw [read_quoted hcodes, Except.ok.injEq, string.injEq, joinPairs_flatMap_iff hcodes]

/-! ## Objects -/

theorem isGap_newline (level : Nat) : IsGap (newline level) := by
  intro c hc
  rcases List.mem_cons.mp hc with rfl | hc
  · rfl
  · rw [(List.mem_replicate.mp hc).2]
    rfl

/-- What is written of members, at an indent of `level`, spells names and values for which there is
room. -/
def Spells (room level : Nat) (members spelt : List (List Nat × Json)) : Prop :=
  List.Forall₂ (fun member other => IsString (quoted member.1) other.1 ∧
    IsValue room (prettyAt level member.2) other.2) members spelt

theorem isMembers_prettyMembers {room level : Nat} {after : Text} (hafter : IsGap after)
    {member other : List Nat × Json} {members spelt : List (List Nat × Json)}
    (h : Spells room level (member :: members) (other :: spelt)) :
    IsMembers room (newline level ++
      (joinWith (',' :: newline level) (prettyMembers level (member :: members)) ++ after))
      (other :: spelt) := by
  have hblank : IsGap [' '] := by simp [IsGap, isGap]
  induction members generalizing member other spelt with
  | nil =>
    obtain ⟨⟨hname, hvalue⟩, hnil⟩ := List.forall₂_cons.mp h
    obtain rfl := List.forall₂_nil_left_iff.mp hnil
    have hmembers := IsMembers.last (.spaced (isGap_newline level) hname IsGap.nil)
      (.spaced hblank hvalue hafter)
    simpa [joinWith, prettyMembers] using hmembers
  | cons next members ih =>
    obtain ⟨⟨hname, hvalue⟩, hrest⟩ := List.forall₂_cons.mp h
    obtain ⟨other', spelt, -, -, rfl⟩ := List.forall₂_cons_left_iff.mp hrest
    have hmembers := IsMembers.more (.spaced (isGap_newline level) hname IsGap.nil)
      (.spaced hblank hvalue IsGap.nil) (ih hrest)
    simpa [joinWith, prettyMembers] using hmembers

/-- An object is written as one of what is written of its members. -/
theorem isValue_prettyAt {room level : Nat} {members spelt : List (List Nat × Json)}
    (h : Spells room (level + 1) members spelt) :
    IsValue (room + 1) (prettyAt level (.object members)) (.object (merge [] spelt)) := by
  cases members with
  | nil =>
    obtain rfl := List.forall₂_nil_left_iff.mp h
    exact .emptyObject IsGap.nil
  | cons member members =>
    obtain ⟨other, spelt, -, -, rfl⟩ := List.forall₂_cons_left_iff.mp h
    have hmembers := isMembers_prettyMembers (isGap_newline level) h
    simpa [prettyAt, block, prettyMembers] using IsValue.object hmembers

theorem put_of_not_mem {name : List Nat} {value : Json} {members : List (List Nat × Json)}
    (h : name ∉ members.map Prod.fst) : put name value members = members ++ [(name, value)] := by
  induction members with
  | nil => rfl
  | cons member members ih =>
    rw [List.map_cons, List.mem_cons, not_or] at h
    rw [put, if_neg (Ne.symm h.1), ih h.2]
    rfl

theorem merge_of_nodup {members new : List (List Nat × Json)}
    (h : ((members ++ new).map Prod.fst).Nodup) : merge members new = members ++ new := by
  induction new generalizing members with
  | nil => exact (List.append_nil members).symm
  | cons member new ih =>
    obtain ⟨name, value⟩ := member
    have hname : name ∉ members.map Prod.fst := by
      intro hmem
      rw [List.map_append, List.nodup_append] at h
      exact h.2.2 name hmem name List.mem_cons_self rfl
    have happend : members ++ (name, value) :: new = members ++ [(name, value)] ++ new := by simp
    rw [happend] at h ⊢
    rw [← ih h, ← put_of_not_mem hname]
    rfl

end SourceIndex.Json
