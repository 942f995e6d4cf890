import MeshLens.Params
import MeshLens.Proofs.Entries
import MeshLens.Proofs.Url.Location

/-!
# Parameters in a URL

Parameters are read from the query of a URL, changed, and written into its query again. Whatever the texts
are, the query that is written is read as the same parameters, in the same order and each name once. What
can go wrong is not in the query: half of a surrogate pair cannot be written at all, and a URL without an
authority whose path begins with two slashes is written so that the front of its path is read as an
authority, which may be refused.

## Key results

- `Params.changeAll_spec`: what any number of changes leaves
- `Params.halfRun?_changeAll`: changes with whole characters leave whole characters
- `Params.readsBack_iff`: when the parameters are read back from the URL that is written
-/

namespace MeshLens

open Text (hasHalf)
open Url (Location decodePairs checkAuthority)

/-- A change of one parameter. -/
inductive ParamChange
  | set (name value : Text)
  | erase (name : Text)

namespace ParamChange

/-- The name of the parameter. -/
def name : ParamChange → Text
  | set name _ => name
  | erase name => name

/-- Whether a change brings in no half of a surrogate pair. -/
def isWhole : ParamChange → Bool
  | set name value => !hasHalf name && !hasHalf value
  | erase _ => true

end ParamChange

/-- Whether a URL is accepted again when its authority is not written because it is empty. -/
def Url.Location.IsReadable (l : Location) : Prop :=
  l.authority = [] → checkAuthority (Location.splitAuthority l.path).1 = .ok ()

namespace Params

/-- The parameters after a change. -/
def change (p : Params) : ParamChange → Params
  | .set name value => p.set name value
  | .erase name => p.erase name

/-- The parameters after several changes. -/
def changeAll (p : Params) (changes : List ParamChange) : Params :=
  changes.foldl change p

/-- The URL as it is written, if no name and no value holds half of a surrogate pair. -/
def written? (p : Params) : Option Text :=
  match p.halfRun? with
  | some _ => none
  | none => p.url?

/-- Whether the URL that is written can be cut into parts, and its query is read as the parameters. -/
def ReadsBack (p : Params) : Prop :=
  ∃ written l, p.written? = some written ∧ Location.parse written = .ok l ∧
    decodePairs l.query = p.values

/-! ## Changes -/

/-- `changeAll` keeps the URL, and no name comes twice after it. -/
theorem changeAll_spec {p : Params} (changes : List ParamChange) (h : (Entries.names p.values).Nodup) :
    (p.changeAll changes).location = p.location ∧
      (Entries.names (p.changeAll changes).values).Nodup := by
  induction changes generalizing p with
  | nil => exact ⟨rfl, h⟩
  | cons change changes ih =>
    cases change with
    | set name value => exact ih (p := p.set name value) (Entries.nodup_names_set h name value)
    | erase name => exact ih (p := p.erase name) (Entries.nodup_names_erase h name)

/-- `halfRun?` finds half of a surrogate pair exactly where a name or a value holds one. -/
theorem halfRun?_eq_none_iff {p : Params} :
    p.halfRun? = none ↔ ∀ pair ∈ p.values, hasHalf pair.1 = false ∧ hasHalf pair.2 = false := by
  have hnone (s : Text) : Text.halfRun? s = none ↔ hasHalf s = false := by
    rw [← Text.halfRun?_isSome, Option.isSome_eq_false_iff, Option.isNone_iff_eq_none]
  simp only [halfRun?, List.findSome?_eq_none_iff, Option.or_eq_none_iff, hnone]

/-- `changeAll` with whole characters leaves whole characters. -/
theorem halfRun?_changeAll {p : Params} {changes : List ParamChange} (h : p.halfRun? = none)
    (hchanges : ∀ change ∈ changes, change.isWhole = true) : (p.changeAll changes).halfRun? = none := by
  induction changes generalizing p with
  | nil => exact h
  | cons change changes ih =>
    rw [List.forall_mem_cons] at hchanges
    refine ih (p := p.change change) (halfRun?_eq_none_iff.2 fun pair hpair => ?_) hchanges.2
    have hbefore := halfRun?_eq_none_iff.1 h
    cases change with
    | set name value =>
      rcases Entries.mem_set hpair with hpair | rfl
      · exact hbefore pair hpair
      · simpa [ParamChange.isWhole] using hchanges.1
    | erase name => exact hbefore pair (List.mem_filter.1 hpair).1

/-- `ofUrl` reads the pairs of the query, and whole characters only from a URL that holds no others.
-/
theorem ofUrl_spec {url : Text} {p : Params} (h : ofUrl url = .ok p) :
    ∃ l, Location.parse url = .ok l ∧ p.location = some l ∧
      p.values = Entries.ofPairs (decodePairs l.query) ∧
      (hasHalf url = false → p.halfRun? = none) := by
  obtain ⟨l, hparse, rfl⟩ := Except.map_eq_ok h
  refine ⟨l, hparse, rfl, rfl, fun hwhole => halfRun?_eq_none_iff.2 fun pair hpair => ?_⟩
  have hquery := Text.hasHalf_of_subset (Location.query_subset_of_parse hparse) hwhole
  exact Url.hasHalf_decodePairs hquery pair (Entries.mem_of_mem_ofPairs hpair)

/-! ## What is written -/

/-- The URL with the parameters in its query. -/
def locate (p : Params) (l : Location) : Location :=
  { l with query := p.query }

/-- `written?` is the URL with the parameters in its query, when these hold whole characters. -/
theorem written?_eq {p : Params} {l : Location} (hlocation : p.location = some l)
    (hwhole : p.halfRun? = none) : p.written? = some (p.locate l).render := by
  rw [written?, hwhole, url?, hlocation]
  rfl

/-- `written?` is only there when the parameters hold whole characters. -/
theorem halfRun?_of_written? {p : Params} {written : Text} (h : p.written? = some written) :
    p.halfRun? = none := by
  rw [written?] at h
  split at h
  · cases h
  · assumption

/-- `locate` keeps the shape of the parts of a URL. -/
theorem parsed_locate (p : Params) {l : Location} (h : l.Parsed) : (p.locate l).Parsed where
  scheme := h.scheme
  authority := h.authority
  path := h.path
  start := h.start
  schemeless := h.schemeless
  kept := h.kept
  allowed := h.allowed

/-- `decodePairs` reads whole characters back from the query. -/
theorem decodePairs_query {p : Params} (hwhole : p.halfRun? = none) :
    decodePairs p.query = p.values :=
  Url.decodePairs_encodePairs (halfRun?_eq_none_iff.1 hwhole)

/-- `IsReadable` holds when the authority that is read again is accepted. -/
theorem isReadable_iff {l : Location} (h : l.Parsed) :
    l.IsReadable ↔ checkAuthority l.readAuthority = .ok () := by
  rw [Location.IsReadable, Location.readAuthority]
  split
  · rename_i hnil
    exact forall_prop_of_true hnil
  · rename_i hne
    exact iff_of_true (fun hnil => absurd hnil hne) h.allowed

/-- `Location.parse` accepts what is written exactly when the URL `IsReadable`. -/
theorem parse_written {p : Params} {l : Location} (h : l.Parsed) :
    (∃ l', Location.parse (p.locate l).render = .ok l') ↔ l.IsReadable := by
  obtain ⟨path, hparse⟩ := (parsed_locate p h).parse_render Url.isQueryChar_of_mem_encodePairs
  rw [isReadable_iff h, hparse]
  show (∃ l', Except.map _ (checkAuthority l.readAuthority) = .ok l') ↔ _
  cases checkAuthority l.readAuthority with
  | error e => exact iff_of_false (fun ⟨l', h⟩ => by cases h) (fun h => by cases h)
  | ok checked => exact iff_of_true ⟨_, rfl⟩ rfl

/-- `Location.parse` finds the query that was written. -/
theorem query_of_parse_written {p : Params} {l l' : Location} (h : l.Parsed)
    (hparse : Location.parse (p.locate l).render = .ok l') : l'.query = p.query := by
  obtain ⟨path, hwritten⟩ := (parsed_locate p h).parse_render Url.isQueryChar_of_mem_encodePairs
  rw [hwritten] at hparse
  obtain ⟨-, -, rfl⟩ := Except.map_eq_ok hparse
  rfl

/-- `ReadsBack` holds exactly when a URL can be written and can be read. -/
theorem readsBack_iff_of_parsed {p : Params} {l : Location} (hlocation : p.location = some l)
    (h : l.Parsed) : p.ReadsBack ↔ p.halfRun? = none ∧ l.IsReadable := by
  constructor
  · rintro ⟨written, l', hwritten, hparse, -⟩
    have hwhole := halfRun?_of_written? hwritten
    rw [written?_eq hlocation hwhole] at hwritten
    cases hwritten
    exact ⟨hwhole, (parse_written h).1 ⟨l', hparse⟩⟩
  · rintro ⟨hwhole, hreadable⟩
    obtain ⟨l', hparse⟩ := (parse_written (p := p) h).2 hreadable
    refine ⟨_, l', written?_eq hlocation hwhole, hparse, ?_⟩
    rw [query_of_parse_written h hparse, decodePairs_query hwhole]

/-- However the parameters of a URL are changed, they are read back from the URL that is written just when
no name and no value holds half of a surrogate pair, and the front of the path is accepted as an authority
where there is none. The first is so when neither the URL nor the changes hold such halves. In any case the
text between the first question mark and the first number sign is read as the parameters, of which no name
comes twice; what was set last is found, and what was taken out last is not. -/
theorem readsBack_iff {url : Text} {p : Params} (h : ofUrl url = .ok p)
    (changes : List ParamChange) :
    let p' := p.changeAll changes
    (∃ l, Location.parse url = .ok l ∧ (p'.ReadsBack ↔ p'.halfRun? = none ∧ l.IsReadable)) ∧
      (hasHalf url = false → (∀ change ∈ changes, change.isWhole = true) → p'.halfRun? = none) ∧
      (p'.halfRun? = none → ∃ written, p'.written? = some written) ∧
      (∀ written, p'.written? = some written →
        decodePairs (Location.splitPath written).2.1 = p'.values ∧
        ∀ l', Location.parse written = .ok l' → decodePairs l'.query = p'.values) ∧
      (Entries.names p'.values).Nodup ∧
      (∀ before name value, changes = before ++ [.set name value] → p'.get? name = some value) ∧
      ∀ before name, changes = before ++ [.erase name] → p'.get? name = none := by
  intro p'
  obtain ⟨l, hparse, hlocation, hvalues, hwhole⟩ := ofUrl_spec h
  have hparsed := Location.Parsed.of_parse hparse
  obtain ⟨hsame, hnodup⟩ := changeAll_spec (p := p) changes
    (hvalues ▸ Entries.nodup_names_ofPairs (decodePairs l.query))
  have hlocation' : p'.location = some l := hsame.trans hlocation
  refine ⟨⟨l, hparse, readsBack_iff_of_parsed hlocation' hparsed⟩,
    fun hurl => halfRun?_changeAll (hwhole hurl), fun hwhole => ⟨_, written?_eq hlocation' hwhole⟩,
    fun written hwritten => ?_, hnodup, ?_, ?_⟩
  · -- the text between the first question mark and the first number sign is the query that was
    -- written
    have hwhole := halfRun?_of_written? hwritten
    rw [written?_eq hlocation' hwhole] at hwritten
    cases hwritten
    rw [(parsed_locate p' hparsed).query_splitPath_render Url.isQueryChar_of_mem_encodePairs]
    refine ⟨decodePairs_query hwhole, fun l' hparse' => ?_⟩
    rw [query_of_parse_written hparsed hparse', decodePairs_query hwhole]
  · -- the last change is the one that counts
    rintro before name value rfl
    have hlast : p' = (p.changeAll before).set name value := List.foldl_append
    rw [hlast]
    exact (Entries.get?_set _ _ _ _).trans (if_pos rfl)
  · rintro before name rfl
    have hlast : p' = (p.changeAll before).erase name := List.foldl_append
    rw [hlast]
    exact (Entries.get?_erase _ _ _).trans (if_pos rfl)

/-- `ofUrl` of a URL that is cut into parts. -/
theorem ofUrl_of_parse {url : Text} {l : Location} (h : Location.parse url = .ok l) :
    ofUrl url = .ok ⟨some l, Entries.ofPairs (decodePairs l.query)⟩ := by
  rw [ofUrl, h]
  rfl

/-- Names and values with separators, without characters and beyond ASCII are read back. -/
theorem readsBack_iff_separators :
    let url : Text := "http://h/p?a=%26&=c&b=%C3&a=+#x?y"
    let changes : List ParamChange :=
      [.set "graphFind" "app = \"x\" & y+z%20", .set "" "é😀", .set "b" "", .erase "a"]
    ∃ p, ofUrl url = .ok p ∧ (p.changeAll changes).ReadsBack ∧
      (p.changeAll changes).get? "a" = none := by
  intro url changes
  have hparse : Location.parse url = .ok ⟨"http", "h", "/p", "a=%26&=c&b=%C3&a=+", "x?y"⟩ := by
    decide +kernel
  refine ⟨_, ofUrl_of_parse hparse, ?_⟩
  obtain ⟨⟨l, hl, hback⟩, hwhole, -, -, -, -, herased⟩ :=
    readsBack_iff (ofUrl_of_parse hparse) changes
  rw [hparse] at hl
  cases hl
  exact ⟨hback.2 ⟨hwhole (by decide) (by decide), fun h => absurd h (by decide)⟩,
    herased [.set "graphFind" "app = \"x\" & y+z%20", .set "" "é😀", .set "b" ""] "a" rfl⟩

/-- A URL whose path begins with two slashes is accepted. With a parameter set it is written without the
empty authority, and what is written is refused. -/
theorem not_readsBack_slashes :
    let url : Text := "////["
    let written : Text := "//[?n=v"
    ∃ p, ofUrl url = .ok p ∧
      (p.changeAll [.set "n" "v"]).written? = some written ∧
      Location.parse written = .error .misplacedBracket ∧
      ¬(p.changeAll [.set "n" "v"]).ReadsBack := by
  intro url written
  have hparse : Location.parse url = .ok ⟨[], [], "//[", [], []⟩ := by decide
  have hwritten : (changeAll ⟨some ⟨[], [], "//[", [], []⟩, Entries.ofPairs (decodePairs [])⟩
      [.set "n" "v"]).written? = some written := by
    decide +kernel
  have hrefused : Location.parse written = .error .misplacedBracket := by decide
  refine ⟨_, ofUrl_of_parse hparse, hwritten, hrefused, ?_⟩
  rintro ⟨found, l, hfound, hread, -⟩
  obtain rfl : written = found := Option.some.inj (hwritten.symm.trans hfound)
  rw [hrefused] at hread
  cases hread

end Params

end MeshLens
