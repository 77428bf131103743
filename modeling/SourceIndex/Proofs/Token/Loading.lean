import SourceIndex.Token.Request

/-!
# Loading when it is needed

An estimator without a tokenizer loads one for each request that needs it until a load succeeds, and
never again after that (`serveAll_of_create`). While loads fail each such request is told why, and
requests about the context length are answered without any load (`Unloaded`). From the first load that
succeeds on, an estimator answers as one that was made with the tokenizer (`Matches`).
-/

namespace SourceIndex.Token

/-- How many of some requests need the tokenizer. -/
def demand (requests : List Request) : Nat :=
  requests.countP Request.needsTokenizer

namespace Estimator

/-- What is served to requests while no load succeeds, where `n` loads were attempted before. Each
request that needs the tokenizer attempts one load and is told why it failed. -/
inductive Unloaded (length : Nat) (load : Nat → Except String Tokenizer) :
    Nat → List Request → List Served → Prop
  | nil {n : Nat} : Unloaded length load n [] []
  | fail {n : Nat} {r : Request} {cause : String} {requests : List Request} {served : List Served}
      (hneeds : r.needsTokenizer) (hload : load (n + 1) = .error cause)
      (hrest : Unloaded length load (n + 1) requests served) :
      Unloaded length load n (r :: requests) (⟨.error (.token (.notLoaded cause)), n + 1⟩ :: served)
  | budget {n : Nat} {factor : Binary.Number} {requests : List Request} {served : List Served}
      (hrest : Unloaded length load n requests served) :
      Unloaded length load n (.budget factor :: requests)
        (⟨((part length factor).map .budget).mapError .budget, n⟩ :: served)
  | contextLength {n : Nat} {requests : List Request} {served : List Served}
      (hrest : Unloaded length load n requests served) :
      Unloaded length load n (.contextLength :: requests) (⟨.ok (.contextLength length), n⟩ :: served)

/-- What is served to requests by an estimator that is made without a tokenizer. Once a load succeeds,
it is what an estimator serves that is made with the tokenizer, and no more loads are attempted. -/
inductive Lazy (length : Int) (load : Nat → Except String Tokenizer) :
    List Request → List Served → Prop
  | unloaded {requests : List Request} {served : List Served}
      (hall : Unloaded length.toNat load 0 requests served) : Lazy length load requests served
  | loaded {early after : List Request} {served : List Served} {r : Request} {t : Tokenizer}
      {made : Estimator} (hearly : Unloaded length.toNat load 0 early served)
      (hneeds : r.needsTokenizer) (hload : load (demand early + 1) = .ok t)
      (hmade : create length (some t) load = .ok made) :
      Lazy length load (early ++ r :: after) (served ++
        (made.serveAll (r :: after)).map fun s => { s with loads := demand early + 1 })

/-- Two estimators have the same tokenizer at hand, and called it as often. -/
structure Matches (e e' : Estimator) (t : Tokenizer) : Prop where
  contextLength : e.contextLength = e'.contextLength
  left : e.tokenizer = some t
  right : e'.tokenizer = some t
  calls : e.calls = e'.calls

variable {e e' : Estimator} {t : Tokenizer} {r : Request} {cause : String}

/-! ## One request -/

theorem create_eq_ok_iff {length : Int} {tokenizer : Option Tokenizer}
    {load : Nat → Except String Tokenizer} : create length tokenizer load = .ok e ↔
      0 < length ∧ e = { contextLength := length.toNat, load, tokenizer } := by
  rw [create]
  split
  · exact ⟨nofun, fun ⟨hpos, _⟩ => absurd hpos (Int.not_lt.mpr ‹_›)⟩
  · exact ⟨fun h => ⟨Int.not_le.mp ‹_›, (Except.ok.inj h).symm⟩, fun ⟨_, he⟩ => he ▸ rfl⟩

theorem provide_of_tokenizer (h : e.tokenizer = some t) : e.provide = (.ok t, e) := by
  rw [provide, h]

theorem provide_of_load (h : e.tokenizer = none) (hload : e.load (e.loads + 1) = .ok t) :
    e.provide = (.ok t, { e with loads := e.loads + 1, tokenizer := some t }) := by
  simp only [provide, h, hload]

theorem provide_of_fail (h : e.tokenizer = none) (hload : e.load (e.loads + 1) = .error cause) :
    e.provide = (.error (.notLoaded cause), { e with loads := e.loads + 1 }) := by
  simp only [provide, h, hload]

/-- A request that needs no tokenizer changes nothing. -/
theorem serve_snd_of_not_needsTokenizer (h : r.needsTokenizer = false) : (e.serve r).2 = e := by
  cases r with
  | budget | contextLength => rfl
  | tokenizer | tokenize | count | fits => nomatch h

/-- What is served to a request that needs the tokenizer hangs on what becomes of the tokenizer. -/
theorem serve_congr (h : r.needsTokenizer) (hprovide : e.provide = e'.provide) :
    e.serve r = e'.serve r := by
  have htokenize (text : Text) : e.tokenize text = e'.tokenize text := by
    rw [tokenize, tokenize, hprovide]
  cases r with
  | tokenizer => rw [serve, serve, hprovide]
  | tokenize text => rw [serve, serve, htokenize]
  | count text => rw [serve, serve, count, count, htokenize]
  | fits text factor => rw [serve, serve, fits, fits, count, count, htokenize]
  | budget | contextLength => nomatch h

/-- A failed load is told, and leaves an estimator that can load again. -/
theorem serve_of_fail (h : r.needsTokenizer) (hnone : e.tokenizer = none)
    (hload : e.load (e.loads + 1) = .error cause) :
    e.serve r = (.error (.token (.notLoaded cause)), { e with loads := e.loads + 1 }) := by
  have hprovide := provide_of_fail hnone hload
  cases r with
  | tokenizer => rw [serve, hprovide]; rfl
  | tokenize text => rw [serve, tokenize, hprovide]; rfl
  | count text => rw [serve, count, tokenize, hprovide]; rfl
  | fits text factor => rw [serve, fits, count, tokenize, hprovide]; rfl
  | budget | contextLength => nomatch h

/-- After a load a request is served as if the tokenizer had been there before. -/
theorem serve_of_load (h : r.needsTokenizer) (hnone : e.tokenizer = none)
    (hload : e.load (e.loads + 1) = .ok t) :
    e.serve r = serve { e with loads := e.loads + 1, tokenizer := some t } r :=
  serve_congr h ((provide_of_load hnone hload).trans (provide_of_tokenizer rfl).symm)

theorem serveAll_of_load (h : r.needsTokenizer) (hnone : e.tokenizer = none)
    (hload : e.load (e.loads + 1) = .ok t) (requests : List Request) :
    e.serveAll (r :: requests) =
      serveAll { e with loads := e.loads + 1, tokenizer := some t } (r :: requests) := by
  rw [serveAll, serveAll, serve_of_load h hnone hload]

/-! ## Estimators with the same tokenizer -/

namespace Matches

theorem tokenize (h : e.Matches e' t) (text : Text) :
    (e.tokenize text).1 = (e'.tokenize text).1 ∧
      (e.tokenize text).2.Matches (e'.tokenize text).2 t ∧
      (e.tokenize text).2.loads = e.loads := by
  rw [Estimator.tokenize, Estimator.tokenize, provide_of_tokenizer h.left,
    provide_of_tokenizer h.right]
  dsimp only
  rw [h.calls]
  exact ⟨rfl, ⟨h.contextLength, h.left, h.right, rfl⟩, rfl⟩

theorem count (h : e.Matches e' t) (text : Text) :
    (e.count text).1 = (e'.count text).1 ∧ (e.count text).2.Matches (e'.count text).2 t ∧
      (e.count text).2.loads = e.loads := by
  obtain ⟨hreading, hmatches, hloads⟩ := h.tokenize text
  rw [Estimator.count, Estimator.count]
  exact ⟨congrArg (fun reading => reading.ids.map List.length) hreading, hmatches, hloads⟩

theorem fits (h : e.Matches e' t) (text : Text) (factor : Binary.Number) :
    (e.fits text factor).1 = (e'.fits text factor).1 ∧
      (e.fits text factor).2.Matches (e'.fits text factor).2 t ∧
      (e.fits text factor).2.loads = e.loads := by
  obtain ⟨hsize, hmatches, hloads⟩ := h.count text
  rw [Estimator.fits, Estimator.fits]
  rcases hcount : e.count text with ⟨size, e₁⟩
  rcases hcount' : e'.count text with ⟨size', e₁'⟩
  rw [hcount, hcount'] at hsize hmatches
  rw [hcount] at hloads
  obtain rfl : size = size' := hsize
  cases size with
  | error cause => exact ⟨rfl, hmatches, hloads⟩
  | ok n =>
    dsimp only
    rw [← hmatches.contextLength]
    cases part e₁.contextLength factor with
    | error cause => exact ⟨rfl, hmatches, hloads⟩
    | ok limit => exact ⟨rfl, hmatches, hloads⟩

/-- Estimators with the same tokenizer serve a request alike, and without a load. -/
theorem serve (h : e.Matches e' t) (r : Request) :
    (e.serve r).1 = (e'.serve r).1 ∧ (e.serve r).2.Matches (e'.serve r).2 t ∧
      (e.serve r).2.loads = e.loads := by
  cases r with
  | tokenizer =>
    rw [Estimator.serve, Estimator.serve, provide_of_tokenizer h.left,
      provide_of_tokenizer h.right]
    exact ⟨rfl, h, rfl⟩
  | tokenize text =>
    obtain ⟨hreading, hmatches, hloads⟩ := h.tokenize text
    exact ⟨congrArg (fun reading => (reading.ids.map Answer.ids).mapError FitError.token) hreading,
      hmatches, hloads⟩
  | count text =>
    obtain ⟨hsize, hmatches, hloads⟩ := h.count text
    exact ⟨congrArg (fun size => (size.map Answer.count).mapError FitError.token) hsize,
      hmatches, hloads⟩
  | fits text factor =>
    obtain ⟨hfits, hmatches, hloads⟩ := h.fits text factor
    exact ⟨congrArg (fun fits => fits.map Answer.fits) hfits, hmatches, hloads⟩
  | budget factor =>
    refine ⟨?_, h, rfl⟩
    rw [Estimator.serve, Estimator.serve, budget, budget, h.contextLength]
  | contextLength =>
    refine ⟨?_, h, rfl⟩
    rw [Estimator.serve, Estimator.serve, h.contextLength]

/-- Estimators with the same tokenizer serve any requests alike, and no load is attempted. -/
theorem serveAll (h : e.Matches e' t) (requests : List Request) :
    e.serveAll requests = (e'.serveAll requests).map fun s => { s with loads := e.loads } := by
  induction requests generalizing e e' with
  | nil => rfl
  | cons r requests ih =>
    obtain ⟨hanswer, hmatches, hloads⟩ := h.serve r
    rw [Estimator.serveAll, Estimator.serveAll, List.map_cons, hanswer, ih hmatches, hloads]

end Matches

/-! ## Requests until a load succeeds -/

theorem demand_cons_of_needsTokenizer (h : r.needsTokenizer) (requests : List Request) :
    demand (r :: requests) = demand requests + 1 :=
  List.countP_cons_of_pos h

theorem demand_cons_of_not_needsTokenizer (h : r.needsTokenizer = false)
    (requests : List Request) : demand (r :: requests) = demand requests :=
  List.countP_cons_of_neg (by rw [h]; exact Bool.false_ne_true)

theorem Unloaded.of_not_needsTokenizer (h : r.needsTokenizer = false)
    {load : Nat → Except String Tokenizer} {n : Nat} {requests : List Request}
    {served : List Served} (hrest : Unloaded e.contextLength load n requests served) :
    Unloaded e.contextLength load n (r :: requests) (⟨(e.serve r).1, n⟩ :: served) := by
  cases r with
  | budget => exact .budget hrest
  | contextLength => exact .contextLength hrest
  | tokenizer | tokenize | count | fits => nomatch h

/-- Loads fail for the first requests. The next one, if there is any, needs the tokenizer and gets
it. -/
theorem exists_unloaded (h : e.tokenizer = none) (requests : List Request) :
    ∃ early late served, requests = early ++ late ∧
      Unloaded e.contextLength e.load e.loads early served ∧
      e.serveAll requests =
        served ++ serveAll { e with loads := e.loads + demand early } late ∧
      ∀ r after, late = r :: after → r.needsTokenizer ∧
        ∃ t, e.load (e.loads + demand early + 1) = .ok t := by
  induction requests generalizing e with
  | nil => exact ⟨[], [], [], rfl, .nil, rfl, nofun⟩
  | cons r requests ih =>
    cases hneeds : r.needsTokenizer with
    | false =>
      obtain ⟨early, late, served, rfl, hearly, hserved, hlate⟩ := ih h
      refine ⟨r :: early, late, _ :: served, rfl, hearly.of_not_needsTokenizer hneeds, ?_⟩
      rw [serveAll, serve_snd_of_not_needsTokenizer hneeds, hserved,
        demand_cons_of_not_needsTokenizer hneeds]
      exact ⟨rfl, hlate⟩
    | true =>
      cases hload : e.load (e.loads + 1) with
      | ok t =>
        refine ⟨[], r :: requests, [], rfl, .nil, rfl, ?_⟩
        rintro r' after heq
        obtain ⟨rfl, rfl⟩ := List.cons.inj heq
        exact ⟨hneeds, t, hload⟩
      | error cause =>
        obtain ⟨early, late, served, rfl, hearly, hserved, hlate⟩ :=
          ih (e := { e with loads := e.loads + 1 }) h
        refine ⟨r :: early, late, _ :: served, rfl, .fail hneeds hload hearly, ?_⟩
        rw [serveAll, serve_of_fail hneeds h hload, hserved,
          demand_cons_of_needsTokenizer hneeds, Nat.add_comm (demand early), ← Nat.add_assoc]
        exact ⟨rfl, hlate⟩

/-- An estimator that is made without a tokenizer attempts one load for each request that needs it until
a load succeeds. Until then each such request is told why its load failed. From then on all is served
as by an estimator that is made with that tokenizer. -/
theorem serveAll_of_create {length : Int} {load : Nat → Except String Tokenizer}
    (h : create length none load = .ok e) (requests : List Request) :
    Lazy length load requests (e.serveAll requests) := by
  obtain ⟨hlength, rfl⟩ := create_eq_ok_iff.mp h
  obtain ⟨early, late, served, rfl, hearly, hserved, hlate⟩ :=
    exists_unloaded (e := { contextLength := length.toNat, load, tokenizer := none }) rfl requests
  rw [Nat.zero_add] at hlate hserved
  rw [hserved]
  cases late with
  | nil =>
    rw [serveAll, List.append_nil, List.append_nil]
    exact .unloaded hearly
  | cons r after =>
    obtain ⟨hneeds, t, hload⟩ := hlate r after rfl
    obtain ⟨made, hmade, hmatches⟩ : ∃ made, create length (some t) load = .ok made ∧
        Matches ⟨length.toNat, load, some t, demand early + 1, 0⟩ made t :=
      ⟨_, create_eq_ok_iff.mpr ⟨hlength, rfl⟩, rfl, rfl, rfl, rfl⟩
    rw [serveAll_of_load hneeds rfl hload after]
    exact hmatches.serveAll (r :: after) ▸ .loaded hearly hneeds hload hmade

/-- A source of tokenizers that cannot be reached at first. The tokenizer fails at its second call. -/
def retried : Nat → Except String Tokenizer
  | 1 => .error "unreachable"
  | _ => .ok { encode n _ := { ids := if n = 2 then .error "broken" else .ok [7] } }

/-- Requests, the first of which that needs the tokenizer does not get it. -/
def someRequests : List Request :=
  [.contextLength, .count [], .count ['a'], .budget fitFactor, .count ['b'], .tokenize ['c']]

theorem serveAll_of_create_retried :
    ∃ e, create 100 none retried = .ok e ∧
      (e.serveAll someRequests).map Served.loads = [0, 1, 2, 2, 2, 2] ∧
      Lazy 100 retried someRequests (e.serveAll someRequests) :=
  ⟨_, rfl, rfl, serveAll_of_create rfl someRequests⟩

end Estimator

end SourceIndex.Token
