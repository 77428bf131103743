import Mathlib.Data.List.Forall2
import SourceIndex.Text.Utf8

/-!
# Strict reading of UTF-8

The ranges for the bytes of a unit are those of the characters' own codes: `isTail_iff` has the ranges
in numbers, and with it a unit that is a character is its code (`exists_of_piece`) and a code is one
unit (`piece_append`). So strict reading takes just the codes of texts, `decode_eq_ok_iff`.
-/

namespace SourceIndex.Text.Utf8

variable {c : Char} {lead : UInt8} {ranges : List (UInt8 × UInt8)} {bytes rest tail : List UInt8}
  {code width : Nat} {t : Text}

/-- Each byte of a tail lies in its range. -/
def InRanges (ranges : List (UInt8 × UInt8)) (tail : List UInt8) : Prop :=
  List.Forall₂ (fun range b => range.1 ≤ b ∧ b ≤ range.2) ranges tail

/-- The code that a tail makes of the bits before it. -/
def tailCode (code : Nat) (tail : List UInt8) : Nat :=
  tail.foldl (fun code b => code * 64 + b.toNat % 64) code

/-! ## One unit -/

theorem pieceTail_append (h : InRanges ranges tail) (rest : List UInt8) :
    pieceTail code width ranges (tail ++ rest) =
      ⟨width + tail.length, .ok (Char.ofNat (tailCode code tail))⟩ := by
  induction h generalizing code width with
  | nil => rfl
  | @cons range b ranges tail hrange htail ih =>
    rw [List.cons_append, pieceTail, if_pos (by simpa using hrange), ih, List.length_cons,
      Nat.add_right_comm, Nat.add_assoc]
    rfl

theorem exists_inRanges_of_pieceTail {w : Nat}
    (h : pieceTail code width ranges bytes = ⟨w, .ok c⟩) :
    ∃ tail rest, bytes = tail ++ rest ∧ InRanges ranges tail := by
  induction ranges generalizing code width bytes with
  | nil => exact ⟨[], bytes, rfl, .nil⟩
  | cons range ranges ih =>
    cases bytes with
    | nil => cases h
    | cons b bytes =>
      rw [pieceTail] at h
      split at h
      case isTrue hrange =>
        obtain ⟨tail, rest, rfl, htail⟩ := ih h
        exact ⟨b :: tail, rest, rfl, .cons (by simpa using hrange) htail⟩
      case isFalse => cases h

theorem toNat_val_ofNat {n : Nat} (h : n.isValidChar) : (Char.ofNat n).val.toNat = n := by
  rw [Char.ofNat, dif_pos h]
  rfl

theorem tailRanges_eq (lead : UInt8) : tailRanges lead =
    let n := lead.toNat
    if n < 0x80 then some []
    else if n < 0xc2 then none
    else if n < 0xe0 then some [(0x80, 0xbf)]
    else if n = 0xe0 then some [(0xa0, 0xbf), (0x80, 0xbf)]
    else if n = 0xed then some [(0x80, 0x9f), (0x80, 0xbf)]
    else if n < 0xf0 then some [(0x80, 0xbf), (0x80, 0xbf)]
    else if n = 0xf0 then some [(0x90, 0xbf), (0x80, 0xbf), (0x80, 0xbf)]
    else if n < 0xf4 then some [(0x80, 0xbf), (0x80, 0xbf), (0x80, 0xbf)]
    else if n = 0xf4 then some [(0x80, 0x8f), (0x80, 0xbf), (0x80, 0xbf)]
    else none := by
  simp only [tailRanges, UInt8.lt_iff_toNat_lt, ← UInt8.toNat_inj]
  rfl

/-- The bytes that may follow a leading one. -/
def IsTail (lead : UInt8) (tail : List UInt8) : Prop :=
  ∃ ranges, tailRanges lead = some ranges ∧ InRanges ranges tail

theorem inRanges_nil_iff : InRanges [] tail ↔ tail = [] :=
  List.forall₂_nil_left_iff

theorem inRanges_cons_iff {lo hi : UInt8} : InRanges ((lo, hi) :: ranges) tail ↔
    ∃ b rest, lo.toNat ≤ b.toNat ∧ b.toNat ≤ hi.toNat ∧ InRanges ranges rest ∧ tail = b :: rest := by
  simp only [InRanges, List.forall₂_cons_left_iff, UInt8.le_iff_toNat_le, and_assoc]

/-- The table of well-formed units. The first byte of a tail is bounded further behind four leading
bytes, where the code would be too small, too large or that of a surrogate. -/
theorem isTail_iff : IsTail lead tail ↔
    lead.toNat < 0x80 ∧ tail = [] ∨
    (∃ b : UInt8, tail = [b] ∧ 0xc2 ≤ lead.toNat ∧ lead.toNat < 0xe0 ∧
      0x80 ≤ b.toNat ∧ b.toNat ≤ 0xbf) ∨
    (∃ b c : UInt8, tail = [b, c] ∧ 0xe0 ≤ lead.toNat ∧ lead.toNat < 0xf0 ∧
      0x80 ≤ b.toNat ∧ b.toNat ≤ 0xbf ∧ (lead.toNat = 0xe0 → 0xa0 ≤ b.toNat) ∧
      (lead.toNat = 0xed → b.toNat ≤ 0x9f) ∧ 0x80 ≤ c.toNat ∧ c.toNat ≤ 0xbf) ∨
    ∃ b c d : UInt8, tail = [b, c, d] ∧ 0xf0 ≤ lead.toNat ∧ lead.toNat < 0xf5 ∧
      0x80 ≤ b.toNat ∧ b.toNat ≤ 0xbf ∧ (lead.toNat = 0xf0 → 0x90 ≤ b.toNat) ∧
      (lead.toNat = 0xf4 → b.toNat ≤ 0x8f) ∧ 0x80 ≤ c.toNat ∧ c.toNat ≤ 0xbf ∧
      0x80 ≤ d.toNat ∧ d.toNat ≤ 0xbf := by
  rw [IsTail, tailRanges_eq]
  dsimp only
  generalize lead.toNat = n
  repeat' split
  all_goals
    simp [inRanges_nil_iff, inRanges_cons_iff]
    grind

/-- The bytes of a unit are those of the character that it stands for. -/
theorem utf8EncodeChar_of_isTail (h : IsTail lead tail) :
    String.utf8EncodeChar (Char.ofNat (tailCode (leadBits lead) tail)) = lead :: tail := by
  rcases isTail_iff.mp h with ⟨hn, rfl⟩ | ⟨b, rfl, hn⟩ | ⟨b, c, rfl, hn⟩ | ⟨b, c, d, rfl, hn⟩
  · have hcode : tailCode (leadBits lead) [] = lead.toNat := by
      rw [tailCode, List.foldl_nil, leadBits, if_pos hn]
    rw [hcode, String.utf8EncodeChar, toNat_val_ofNat (.inl (by omega)), if_pos (by omega),
      UInt8.ofNat_toNat]
  · have hcode : tailCode (leadBits lead) [b] = lead.toNat % 0x20 * 64 + b.toNat % 64 := by
      simp only [tailCode, leadBits, List.foldl_cons, List.foldl_nil]
      rw [if_neg (by omega), if_pos (by omega)]
    rw [hcode, String.utf8EncodeChar, toNat_val_ofNat (.inl (by omega)), if_neg (by omega),
      if_pos (by omega)]
    simp only [List.cons.injEq, ← UInt8.toNat_inj, UInt8.toNat_ofNat', and_true]
    omega
  · have hcode : tailCode (leadBits lead) [b, c] =
        (lead.toNat % 0x10 * 64 + b.toNat % 64) * 64 + c.toNat % 64 := by
      simp only [tailCode, leadBits, List.foldl_cons, List.foldl_nil]
      rw [if_neg (by omega), if_neg (by omega), if_pos (by omega)]
    rw [hcode, String.utf8EncodeChar, toNat_val_ofNat (by rw [Nat.isValidChar]; omega),
      if_neg (by omega), if_neg (by omega), if_pos (by omega)]
    simp only [List.cons.injEq, ← UInt8.toNat_inj, UInt8.toNat_ofNat', and_true]
    omega
  · have hcode : tailCode (leadBits lead) [b, c, d] =
        ((lead.toNat % 0x08 * 64 + b.toNat % 64) * 64 + c.toNat % 64) * 64 + d.toNat % 64 := by
      simp only [tailCode, leadBits, List.foldl_cons, List.foldl_nil]
      rw [if_neg (by omega), if_neg (by omega), if_neg (by omega)]
    rw [hcode, String.utf8EncodeChar, toNat_val_ofNat (by rw [Nat.isValidChar]; omega),
      if_neg (by omega), if_neg (by omega), if_neg (by omega)]
    simp only [List.cons.injEq, ← UInt8.toNat_inj, UInt8.toNat_ofNat', and_true]
    omega

/-- The bytes of a character are a unit. -/
theorem isTail_of_utf8EncodeChar (h : String.utf8EncodeChar c = lead :: tail) :
    IsTail lead tail := by
  have hvalid := c.valid
  rw [UInt32.isValidChar, Nat.isValidChar] at hvalid
  rw [String.utf8EncodeChar] at h
  rw [isTail_iff]
  split at h
  · obtain ⟨rfl, rfl⟩ := List.cons.inj h
    refine .inl ⟨?_, rfl⟩
    rw [UInt8.toNat_ofNat']
    omega
  · split at h
    · obtain ⟨rfl, rfl⟩ := List.cons.inj h
      refine .inr (.inl ⟨_, rfl, ?_⟩)
      simp only [UInt8.toNat_ofNat']
      omega
    · split at h
      · obtain ⟨rfl, rfl⟩ := List.cons.inj h
        refine .inr (.inr (.inl ⟨_, _, rfl, ?_⟩))
        simp only [UInt8.toNat_ofNat']
        omega
      · obtain ⟨rfl, rfl⟩ := List.cons.inj h
        refine .inr (.inr (.inr ⟨_, _, _, rfl, ?_⟩))
        simp only [UInt8.toNat_ofNat']
        omega

theorem utf8EncodeChar_inj {c d : Char} (h : String.utf8EncodeChar c = String.utf8EncodeChar d) :
    c = d := by
  have hc := ByteArray.utf8DecodeChar?_utf8EncodeChar_append (b := .empty) (c := c)
  rw [h, ByteArray.utf8DecodeChar?_utf8EncodeChar_append] at hc
  exact (Option.some.inj hc).symm

/-- The unit of a character is read as the character, whatever comes after it. -/
theorem piece_append (h : String.utf8EncodeChar c = lead :: tail) (rest : List UInt8) :
    piece lead (tail ++ rest) = ⟨1 + tail.length, .ok c⟩ := by
  have htail := isTail_of_utf8EncodeChar h
  obtain rfl := utf8EncodeChar_inj ((utf8EncodeChar_of_isTail htail).trans h.symm)
  obtain ⟨ranges, hranges, hin⟩ := htail
  rw [piece, hranges]
  exact pieceTail_append hin rest

/-- What is read as a character starts with the unit of the character. -/
theorem exists_of_piece (h : (piece lead bytes).value = .ok c) :
    ∃ tail rest, bytes = tail ++ rest ∧ String.utf8EncodeChar c = lead :: tail := by
  have hpiece : piece lead bytes = ⟨(piece lead bytes).width, .ok c⟩ := by rw [← h]
  rw [piece] at hpiece
  split at hpiece
  · cases hpiece
  next ranges hranges =>
    obtain ⟨tail, rest, rfl, hin⟩ := exists_inRanges_of_pieceTail hpiece
    have hunit := utf8EncodeChar_of_isTail ⟨ranges, hranges, hin⟩
    rw [piece_append hunit rest] at h
    exact ⟨tail, rest, rfl, Except.ok.inj h ▸ hunit⟩

/-! ## All units -/

theorem decodePieces_eq_ok_iff {position : Nat} {ps : List Piece} :
    decodePieces bytes position ps = .ok t ↔ ps.map Piece.value = t.map .ok := by
  induction ps generalizing position t with
  | nil =>
    rw [decodePieces, Except.ok.injEq, List.map_nil, eq_comm, eq_comm (a := []),
      List.map_eq_nil_iff]
  | cons p ps ih =>
    rw [decodePieces, List.map_cons]
    cases hvalue : p.value with
    | error defect => cases t <;> simp
    | ok c =>
      dsimp only
      cases t with
      | nil => cases decodePieces bytes (position + p.width) ps <;> simp [Except.map]
      | cons d t =>
        have hrest : decodePieces bytes (position + p.width) ps = .ok t ↔ _ := ih
        rw [List.map_cons, List.cons.injEq, Except.ok.injEq, ← hrest]
        cases decodePieces bytes (position + p.width) ps <;> simp [Except.map]

theorem map_value_pieces_encode (t : Text) : (pieces (encode t)).map Piece.value = t.map .ok := by
  induction t with
  | nil => rw [encode, List.flatMap_nil, pieces]; rfl
  | cons c t ih =>
    obtain ⟨lead, tail, hunit⟩ := List.exists_cons_of_ne_nil (String.utf8EncodeChar_ne_nil (c := c))
    rw [encode, List.flatMap_cons, hunit, List.cons_append, pieces, piece_append hunit]
    dsimp only
    rw [Nat.add_sub_cancel_left, List.drop_left, List.map_cons, List.map_cons]
    exact congrArg _ ih

theorem eq_encode_of_map_value_pieces (h : (pieces bytes).map Piece.value = t.map .ok) :
    bytes = encode t := by
  fun_induction pieces bytes generalizing t with
  | case1 => rw [List.map_eq_nil_iff.mp h.symm]; rfl
  | case2 lead rest p =>
    rename_i ih
    obtain ⟨c, t, rfl, hc, ht⟩ := List.map_eq_cons_iff.mp h.symm
    obtain ⟨tail, rest, rfl, hunit⟩ := exists_of_piece hc.symm
    have hp : p = ⟨1 + tail.length, .ok c⟩ := piece_append hunit rest
    rw [hp] at ih ht
    dsimp only at ih ht
    rw [Nat.add_sub_cancel_left, List.drop_left] at ih ht
    rw [encode, List.flatMap_cons, hunit, List.cons_append, ih ht.symm]
    rfl

/-- Bytes are read strictly exactly if they are those of a text, and as that text. -/
theorem decode_eq_ok_iff : decode bytes = .ok t ↔ bytes = encode t := by
  rw [decode, decodePieces_eq_ok_iff]
  exact ⟨eq_encode_of_map_value_pieces, fun h => h ▸ map_value_pieces_encode t⟩

end SourceIndex.Text.Utf8
