import SourceIndex.Proofs.Json.Writing
import SourceIndex.Proofs.Text.Utf8
import SourceIndex.Settings.Folder

/-!
# Saved settings come back

What is saved is written, encoded, decoded and read again as the same members, whatever file was there
before. A key then has the value that the environment gives it, else the saved one, else the one that is
built in.
-/

namespace SourceIndex.Settings

namespace Saved

/-- Each string is read back as it was written. -/
def IsReadable (room : Nat) (s : Saved) : Prop :=
  ∀ entry ∈ s.entries, Json.read room (Json.quoted entry.1) = .ok (.string entry.1) ∧
    Json.read room (Json.quoted entry.2) = .ok (.string entry.2)

variable {room : Nat}

theorem isReadable_iff {s : Saved} :
    s.IsReadable room ↔ ∀ entry ∈ s.entries, Json.IsApart entry.1 ∧ Json.IsApart entry.2 := by
  refine forall₂_congr fun entry hentry => ?_
  have hcode := s.isCode entry hentry
  rw [Json.read_quoted_iff fun n hn => hcode n (List.mem_append_left _ hn),
    Json.read_quoted_iff fun n hn => hcode n (List.mem_append_right _ hn)]

theorem isString_quoted {codes : List Nat} (hcodes : ∀ n ∈ codes, n < 0x110000)
    (h : Json.IsApart codes) : Json.IsString (Json.quoted codes) codes := by
  have hstring := Json.isString_quoted hcodes
  rwa [(Json.joinPairs_flatMap_iff hcodes).mpr h] at hstring

theorem spells_members {s : Saved} (h : s.IsReadable room) (level : Nat) :
    Json.Spells room level s.members s.members := by
  refine List.forall₂_same.mpr fun member hmember => ?_
  obtain ⟨entry, hentry, rfl⟩ := List.mem_map.mp hmember
  have hcode := s.isCode entry hentry
  obtain ⟨hname, hvalue⟩ := isReadable_iff.mp h entry hentry
  refine ⟨isString_quoted (fun n hn => hcode n (List.mem_append_left _ hn)) hname, ?_⟩
  exact .string (isString_quoted (fun n hn => hcode n (List.mem_append_right _ hn)) hvalue)

theorem nodup_members (s : Saved) : (s.members.map Prod.fst).Nodup := by
  rw [members, List.map_map]
  exact s.nodup

theorem lookup_members (s : Saved) (name : List Nat) :
    s.members.lookup name = (s.entries.lookup name).map .string := by
  unfold members
  induction s.entries with
  | nil => rfl
  | cons entry entries ih =>
    rw [List.map_cons, List.lookup_cons, List.lookup_cons, ih]
    cases name == entry.1 <;> rfl

end Saved

/-- What is saved is restored, however little room there is inside the outermost level. -/
theorem restore_store {room : Nat} {s : Saved} (h : s.IsReadable room) :
    restore room (store s.members) = .ok s.members := by
  have hvalue := Json.isValue_prettyAt (s.spells_members h 1)
  have hmerge : Json.merge [] s.members = [] ++ s.members := Json.merge_of_nodup s.nodup_members
  rw [hmerge, List.nil_append] at hvalue
  have hspaced : Json.IsSpaced (room + 1) (storeText s.members) (.object s.members) :=
    .spaced Json.IsGap.nil hvalue (by simp [Json.IsGap, Json.isGap])
  rw [restore, store, Text.Utf8.decode_eq_ok_iff.mpr rfl]
  simp only [Json.read_eq_ok_iff.mpr hspaced]

theorem stored_members (s : Saved) (key : Key) : stored s.members key = (s.get? key).getD [] := by
  rw [stored, s.lookup_members, Saved.get?]
  cases s.entries.lookup (Json.codes key.inFile.toList) <;> rfl

/-- The value of a key by what the environment has of it, what was saved of it and what is built in. -/
structure IsLayered (env : Environment) (s : Saved) (key : Key) (value : List Nat) : Prop where
  ofEnvironment (h : env key.inEnvironment ≠ []) : value = Json.codes (env key.inEnvironment)
  ofSaved (h : env key.inEnvironment = []) {saved : List Nat} (hsaved : s.get? key = some saved)
    (hne : saved ≠ []) : value = saved
  ofBuiltIn (h : env key.inEnvironment = []) (hempty : ∀ saved, s.get? key = some saved → saved = []) :
    value = Json.codes key.builtIn.toList

theorem isLayered_value (env : Environment) (s : Saved) (key : Key) :
    IsLayered env s key (value env s.members key) where
  ofEnvironment h := by
    rw [value, if_pos (by simpa using h)]
  ofSaved h saved hsaved hne := by
    simp [value, stored_members, h, hsaved, hne]
  ofBuiltIn h hempty := by
    have hnone : (s.get? key).getD [] = [] := by
      cases hget : s.get? key with
      | none => rfl
      | some saved => exact hempty saved hget
    simp [value, stored_members, h, hnone]

/-- Wherever settings are saved and loaded with one path, they come back, and the files of before do not
matter. -/
theorem loadFrom_save {room : Nat} {s : Saved} (hread : s.IsReadable room) {home home' : Text}
    {env env' : Environment} (hpath : filePath home' env' = filePath home env) :
    ∃ members, (∀ files,
        ((save home env s files).2 (filePath home' env')).mapM (restore room) =
          .ok (some members) ∧
        loadFrom room home' env' (save home env s files).2 = ofMembers env' members) ∧
      ∀ key, IsLayered env' s key (value env' members key) := by
  refine ⟨s.members, fun files => ?_, isLayered_value env' s⟩
  have hfile : (save home env s files).2 (filePath home' env') = some (store s.members) :=
    if_pos hpath
  refine ⟨?_, ?_⟩
  · rw [hfile, Option.mapM_some, restore_store hread]
    rfl
  · rw [loadFrom, hfile, load_of_restore (restore_store hread)]

/-- Settings with a quote, a line end, a character beyond the first plane and a lone half of a pair in a
value, and with a value that is empty. -/
def Saved.unusual : Saved where
  entries := [(Json.codes "model_path".toList, [0x22, 0x0a, 0x1f600, 0xd800]),
    (Json.codes "context_length".toList, []), (Json.codes "pooling".toList, Json.codes "cls".toList)]
  nodup := by decide
  isCode := by decide

theorem loadFrom_save_unusual :
    let before : Environment := fun name => if name = folderVariable then ['d'] else []
    let after : Environment := fun name =>
      if name = folderVariable then ['d'] else if name = "EMBEDDING_POOLING" then "none".toList else []
    Saved.unusual.IsReadable 0 ∧ filePath ['h'] after = filePath [] before ∧
      ∃ members, (∀ files,
          ((save [] before .unusual files).2 (filePath ['h'] after)).mapM (restore 0) =
            .ok (some members) ∧
          loadFrom 0 ['h'] after (save [] before .unusual files).2 = ofMembers after members) ∧
        value after members .modelPath = [0x22, 0x0a, 0x1f600, 0xd800] ∧
        value after members .contextLength = Json.codes "256".toList ∧
        value after members .pooling = Json.codes "none".toList := by
  intro before after
  have hread : Saved.unusual.IsReadable 0 := by
    rw [Saved.isReadable_iff]
    simp only [Json.IsApart, Json.IsSplit]
    decide
  have hpath : filePath ['h'] after = filePath [] before := rfl
  obtain ⟨members, hfiles, hvalues⟩ := loadFrom_save hread hpath
  refine ⟨hread, hpath, members, hfiles, ?_, ?_, ?_⟩
  · exact (hvalues .modelPath).ofSaved rfl rfl (by decide)
  · refine (hvalues .contextLength).ofBuiltIn rfl fun saved hsaved => ?_
    cases hsaved
    rfl
  · exact (hvalues .pooling).ofEnvironment (by decide)

end SourceIndex.Settings
