import SourceIndex.Proofs.Syntax.Candidates
import SourceIndex.Proofs.Syntax.Outline
import SourceIndex.Syntax.Symbol
import Mathlib.Tactic.MkIffOfInductiveProp

/-! # The listing of symbols

However a construct is wrapped, and wherever its declarator or a declaration below it puts its name, the
name is the text of a node below the construct (`Source.isNameIn_of_nameOf?`). The symbols of a text are
those of the places that are captured for some pattern and have a name, each once, in the order of their
rows and columns (`isListing_symbols`). -/

namespace SourceIndex.Syntax

/-! ## Nodes -/

namespace Tree

variable {t child n : Tree}

theorem self_mem_nodes (t : Tree) : t ∈ t.nodes := by
  cases t with
  | node label children =>
    rw [nodes]
    exact List.mem_cons_self

theorem mem_nodesOf_of_mem {ts : List Tree} (hchild : child ∈ ts) (hn : n ∈ child.nodes) :
    n ∈ nodesOf ts := by
  induction ts with
  | nil => exact absurd hchild List.not_mem_nil
  | cons t ts ih =>
    rw [nodesOf, List.mem_append]
    rcases List.mem_cons.mp hchild with rfl | hchild
    · exact .inl hn
    · exact .inr (ih hchild)

/-- What is below a child is below its parent. -/
theorem mem_nodes_of_mem_children (hchild : child ∈ t.children) (hn : n ∈ child.nodes) :
    n ∈ t.nodes := by
  cases t with
  | node label children =>
    rw [nodes]
    exact List.mem_cons_of_mem _ (mem_nodesOf_of_mem hchild hn)

end Tree

/-! ## Names -/

/-- A node whose text may be the name of a construct: a name, what a declarator declares, or the
selectors of a rule. -/
def Tree.IsNaming (n : Tree) : Prop :=
  n.kind ∈ declaratorKinds ∨ n.kind = "selectors"

theorem Tree.isNaming_of_identifier {n : Tree} (h : identifierKinds.contains n.kind = true) :
    n.IsNaming :=
  .inl (List.mem_append_left _ (List.contains_iff_mem.mp h))

/-- A name is the text of a node in a tree. -/
def Source.IsNameIn (s : Source) (t : Tree) (name : Text) : Prop :=
  ∃ n ∈ t.nodes, n.IsNaming ∧ name = s.textOf n

section

variable {s : Source} {t child : Tree} {name : Text}

theorem Source.IsNameIn.of_child (hchild : child ∈ t.children) (h : s.IsNameIn child name) :
    s.IsNameIn t name := by
  obtain ⟨n, hn, hnaming, rfl⟩ := h
  exact ⟨n, Tree.mem_nodes_of_mem_children hchild hn, hnaming, rfl⟩

theorem Source.isNameIn_textOf (hchild : child ∈ t.children) (h : child.IsNaming) :
    s.IsNameIn t (s.textOf child) :=
  .of_child hchild ⟨child, child.self_mem_nodes, h, rfl⟩

theorem nonEmpty?_eq_some_iff {name? : Option Text} :
    nonEmpty? name? = some name ↔ name? = some name ∧ name ≠ [] := by
  rcases name? with - | - | ⟨c, cs⟩
  · simp [nonEmpty?]
  · simp [nonEmpty?, eq_comm]
  · simp only [nonEmpty?, iff_self_and]
    rintro ⟨⟩
    exact List.cons_ne_nil c cs

/-- However it is nested, a construct has the text of a node below it for its name. -/
theorem Source.isNameIn_of_nameOf? (h : s.nameOf? t = some name) : s.IsNameIn t name := by
  -- The cases are the ways to a name, in the order they are tried.
  fun_induction Source.nameOf? s t with
  | case1 t own child hown =>
    obtain rfl := Option.some.inj h
    obtain ⟨field, -, hfield⟩ := List.exists_of_findSome?_eq_some hown
    obtain ⟨hchild, hkind⟩ := Option.filter_eq_some_iff.mp hfield
    exact isNameIn_textOf (List.mem_of_find?_eq_some hchild) (Tree.isNaming_of_identifier hkind)
  | case2 t own _ wrapped inner hinner ih =>
    obtain rfl := Option.some.inj h
    have hwrapped (field : String) (hfield : wrapped field = some inner) : s.IsNameIn t inner := by
      simp only [wrapped] at hfield
      split at hfield
      next child hchild =>
        have hname := (nonEmpty?_eq_some_iff.mp hfield).1
        exact (ih field child hchild hname).of_child (List.mem_of_find?_eq_some hchild)
      next => cases hfield
    rcases Option.or_eq_some_iff.mp hinner with hdefinition | ⟨-, hdeclaration⟩
    · exact hwrapped "definition" hdefinition
    · exact hwrapped "declaration" hdeclaration
  | case3 t own _ wrapped _ declared n hdeclared _ =>
    obtain rfl := Option.some.inj h
    obtain ⟨declarator, hdeclarator, hn⟩ := Option.bind_eq_some_iff.mp hdeclared
    have hkind := List.find?_some hn
    refine ⟨n, ?_, .inl (List.contains_iff_mem.mp hkind), rfl⟩
    exact Tree.mem_nodes_of_mem_children (List.mem_of_find?_eq_some hdeclarator)
      (List.mem_of_find?_eq_some hn)
  | case4 t own _ wrapped _ declared _ selectors child hchild _ =>
    obtain rfl := Option.some.inj h
    rcases Option.or_eq_some_iff.mp hchild with hselectors | ⟨-, hlast⟩
    · simp only [selectors] at hselectors
      split at hselectors
      · have hkind := List.find?_some hselectors
        exact isNameIn_textOf (List.mem_of_find?_eq_some hselectors) (.inr (eq_of_beq hkind))
      · cases hselectors
    · have hkind := List.find?_some hlast
      exact isNameIn_textOf (List.mem_reverse.mp (List.mem_of_find?_eq_some hlast))
        (Tree.isNaming_of_identifier hkind)
  | case5 t own _ wrapped _ declared _ selectors _ child hchild _ ih =>
    exact (ih h).of_child (List.mem_of_find?_eq_some hchild)
  | case6 => cases h

end

/-! ## The listing -/

/-- A symbol stands for a place that is captured for some pattern: it has the name, the type, the row
and the column of the place. -/
@[mk_iff]
structure IsSymbolOf (engine : QueryEngine) (spec : LanguageSpec) (text : Text) (t : Tree) (p : Place)
    (symbol : Symbol) : Prop where
  captured : ∃ pattern ∈ spec.pointsOfInterest, p ∈ engine.captured pattern t
  named : (Source.ofText text).nameOf? p.tree = some symbol.name
  nonEmpty : symbol.name ≠ []
  kind : symbol.kind = p.kind
  row : symbol.row = (Source.ofText text).row p.start
  column : symbol.column = (Source.ofText text).column p.start

/-- A list of symbols is in order and has each symbol once: those of the places that have a name. Every
name is the text of a node at or below the place. -/
structure IsListing (engine : QueryEngine) (spec : LanguageSpec) (text : Text) (t : Tree)
    (symbols : List Symbol) : Prop where
  ordered : symbols.Pairwise fun a b => a.row < b.row ∨ a.row = b.row ∧ a.column ≤ b.column
  nodup : symbols.Nodup
  entries : ∀ symbol, symbol ∈ symbols ↔ ∃ p, IsSymbolOf engine spec text t p symbol
  names : ∀ p symbol, IsSymbolOf engine spec text t p symbol →
    (Source.ofText text).IsNameIn p.tree symbol.name

theorem Source.symbol?_eq_some_iff {s : Source} {p : Place} {symbol : Symbol} :
    s.symbol? p = some symbol ↔ s.nameOf? p.tree = some symbol.name ∧ symbol.name ≠ [] ∧
      symbol.kind = p.kind ∧ symbol.row = s.row p.start ∧ symbol.column = s.column p.start := by
  rw [symbol?, Option.map_eq_some_iff]
  constructor
  · rintro ⟨name, hname, rfl⟩
    obtain ⟨hname, hne⟩ := nonEmpty?_eq_some_iff.mp hname
    exact ⟨hname, hne, rfl, rfl, rfl⟩
  · rintro ⟨hname, hne, hkind, hrow, hcolumn⟩
    refine ⟨symbol.name, nonEmpty?_eq_some_iff.mpr ⟨hname, hne⟩, ?_⟩
    rw [← hkind, ← hrow, ← hcolumn]

theorem mem_filterMap_symbol? {engine : QueryEngine} {spec : LanguageSpec} {text : Text} {t : Tree}
    {symbol : Symbol} (hengine : engine.CapturesNodes t) :
    symbol ∈ (candidates engine spec.pointsOfInterest t).filterMap (Source.ofText text).symbol? ↔
      ∃ p, IsSymbolOf engine spec text t p symbol := by
  simp only [List.mem_filterMap, mem_candidates hengine, Source.symbol?_eq_some_iff, isSymbolOf_iff]

namespace Symbol

theorem precedes_iff {a b : Symbol} :
    a.precedes b = true ↔ a.row < b.row ∨ a.row = b.row ∧ a.column ≤ b.column := by
  simp [precedes]

theorem precedes_trans (a b c : Symbol) (hab : a.precedes b = true) (hbc : b.precedes c = true) :
    a.precedes c = true := by
  rw [precedes_iff] at *
  omega

theorem precedes_total (a b : Symbol) : (a.precedes b || b.precedes a) = true := by
  rw [Bool.or_eq_true, precedes_iff, precedes_iff]
  omega

theorem pairwise_mergeSort (symbols : List Symbol) :
    (symbols.mergeSort precedes).Pairwise
      fun a b => a.row < b.row ∨ a.row = b.row ∧ a.column ≤ b.column :=
  (List.pairwise_mergeSort precedes_trans precedes_total symbols).imp precedes_iff.mp

end Symbol

/-- The symbols of a text are those of the places in its tree that are captured for patterns and have
names. -/
theorem isListing_symbols {spec? : String → Option LanguageSpec} {parser : Parser} {text : Text}
    {language : String} {variant : Option String} {spec : LanguageSpec} {t : Tree}
    (hspec : spec? language = some spec) (hparse : parser.parse text language variant = some t)
    (hengine : (parser.engine language variant).CapturesNodes t) :
    IsListing (parser.engine language variant) spec text t
      (symbols spec? parser text language variant) := by
  simp only [symbols, hspec, hparse]
  refine ⟨Symbol.pairwise_mergeSort _, ?_, fun symbol => ?_, fun p symbol h => ?_⟩
  · exact (List.mergeSort_perm _ _).nodup_iff.mpr (nodup_eraseDups _)
  · rw [List.mem_mergeSort, List.mem_eraseDups, mem_filterMap_symbol? hengine]
  · exact Source.isNameIn_of_nameOf? h.named

/-- An export of a definition whose declarator holds the name. -/
def exported : Tree :=
  .node ⟨"export", true, none, 0, 3⟩ [.node ⟨"function_definition", true, some "declaration", 2, 3⟩
    [.node ⟨"function_declarator", true, some "declarator", 2, 3⟩
      [.node ⟨"identifier", true, none, 2, 3⟩ []]]]

/-- A language in which exports are points of interest. -/
def exportedSpec : LanguageSpec where
  grammar := ⟨"", ""⟩
  pointsOfInterest := ["(export) @it"]

/-- A parser that knows one tree. -/
def exportedParser : Parser where
  parse _ _ _ := some exported
  engine _ _ := Pattern.engine

theorem isListing_symbols_exported :
    let text := ['x', ' ', 'f']
    let ss := symbols (fun _ => some exportedSpec) exportedParser text "" none
    Pattern.engine.CapturesNodes exported ∧
      IsListing Pattern.engine exportedSpec text exported ss ∧ ⟨['f'], "export", 0, 0⟩ ∈ ss := by
  intro text ss
  have hengine : (exportedParser.engine "" none).CapturesNodes exported :=
    Pattern.capturesNodes_engine exported
  have hlisting : IsListing (exportedParser.engine "" none) exportedSpec text exported ss :=
    isListing_symbols rfl rfl hengine
  have hparse : Pattern.parse? "(export) @it".toList = some ⟨"export", none, some "it"⟩ := by
    decide +kernel
  have hsearch : Pattern.engine.search? "(export) @it" = some _ :=
    congrArg (Option.map Pattern.found) hparse
  have hcaptured : ⟨[0], exported, []⟩ ∈ Pattern.engine.captured "(export) @it" exported := by
    rw [QueryEngine.captured, hsearch]
    exact List.mem_cons_self
  refine ⟨hengine, hlisting,
    (hlisting.entries _).mpr ⟨⟨[0], exported, []⟩, ?_, ?_, ?_, rfl, rfl, rfl⟩⟩
  · exact ⟨"(export) @it", List.mem_singleton_self _, hcaptured⟩
  · decide +kernel
  · exact List.cons_ne_nil _ _

end SourceIndex.Syntax
