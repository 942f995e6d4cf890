import MeshLens.Proofs.ForStd
import MeshLens.Proofs.Url.Form
import MeshLens.Url.Location
import Mathlib.Data.List.TakeWhile

/-!
# Reading a URL back from its parts

A URL that was cut into parts, and put together again with another query, is cut at the same places: no
part holds the delimiter behind it, and the first part is no scheme unless it was one. There is one
exception. An authority that is empty is not written, so that a path that begins with two slashes is read
as an authority and the rest of the path. The query is the same then as well, but what is read as an
authority may be refused.

## Key results

- `Location.parse_eq`: a URL is cut in four steps
- `Location.Parsed`, `Location.Parsed.of_parse`: what the parts of a URL are like
- `Location.Parsed.parse_render`: what is read of a URL with another query
-/

namespace MeshLens.Url

/-! ## Characters -/

/-- The characters that end an authority. -/
def endsAuthority (c : CodePoint) : Bool :=
  c = '/' || c = '?' || c = '#'

/-- The characters that are not dropped from a URL. -/
def isKept (c : CodePoint) : Bool :=
  c ≠ '\t' && c ≠ '\r' && c ≠ '\n'

/-- `isKept` holds of everything but control characters and spaces. -/
theorem isKept_of_lt {c : CodePoint} (h : 32 < c.toNat) : isKept c = true := by
  have hne (b : Char) (hb : b.toNat ≤ 32) : c ≠ .char b := by
    rintro rfl
    exact absurd h (Nat.not_lt.2 hb)
  simp [isKept, hne]

/-- `CodePoint.toNat` takes the characters of a class without control characters and spaces beyond these. -/
theorem lt_of_class {p : CodePoint → Bool} (hsmall : ∀ n ≤ 32, p (CodePoint.ofNat n) = false)
    {c : CodePoint} (h : p c = true) : 32 < c.toNat := by
  by_contra hle
  exact Bool.false_ne_true ((hsmall c.toNat (Nat.not_lt.1 hle)).symm.trans
    ((CodePoint.ofNat_toNat c).symm ▸ h))

/-- `isSchemeChar` holds of no control character and no space. -/
theorem lt_of_isSchemeChar {c : CodePoint} (h : isSchemeChar c = true) : 32 < c.toNat :=
  lt_of_class (by decide) h

/-- `isQueryChar` holds of no control character and no space. -/
theorem lt_of_isQueryChar {c : CodePoint} (h : isQueryChar c = true) : 32 < c.toNat :=
  lt_of_class (by decide) h

/-- `smallLetter` keeps the characters of a scheme and the letters among them, and changes nothing
twice. -/
theorem isSchemeChar_smallLetter {c : CodePoint} (h : isSchemeChar c = true) :
    isSchemeChar (Text.smallLetter c) = true ∧
      Text.smallLetter (Text.smallLetter c) = Text.smallLetter c ∧
      (Text.isLetter c = true → Text.isLetter (Text.smallLetter c) = true) := by
  by_cases hlarge : CodePoint.char 'A' ≤ c ∧ c ≤ CodePoint.char 'Z'
  · have hsmall : Text.smallLetter c = CodePoint.ofNat (c.toNat + 32) := if_pos hlarge
    have hrange : 65 ≤ c.toNat ∧ c.toNat ≤ 90 := hlarge
    have hnat : (CodePoint.ofNat (c.toNat + 32)).toNat = c.toNat + 32 :=
      CodePoint.toNat_ofNat (by omega)
    have hletter : Text.isLetter (CodePoint.ofNat (c.toNat + 32)) = true := by
      -- a capital letter becomes a small one, which is none of the capital letters
      have hlow : CodePoint.char 'a' ≤ CodePoint.ofNat (c.toNat + 32) := by
        show 97 ≤ (CodePoint.ofNat (c.toNat + 32)).toNat
        omega
      have hhigh : CodePoint.ofNat (c.toNat + 32) ≤ CodePoint.char 'z' := by
        show (CodePoint.ofNat (c.toNat + 32)).toNat ≤ 122
        omega
      simp [Text.isLetter, hlow, hhigh]
    have hnot : ¬(CodePoint.char 'A' ≤ CodePoint.ofNat (c.toNat + 32) ∧
        CodePoint.ofNat (c.toNat + 32) ≤ CodePoint.char 'Z') := by
      rintro ⟨-, hle⟩
      have hle : (CodePoint.ofNat (c.toNat + 32)).toNat ≤ 90 := hle
      omega
    rw [hsmall]
    refine ⟨?_, if_neg hnot, fun _ => hletter⟩
    rw [isSchemeChar, hletter]
    rfl
  · have hsame : Text.smallLetter c = c := if_neg hlarge
    rw [hsame]
    exact ⟨h, hsame, id⟩

/-- `isScheme` holds of a scheme in small letters. -/
theorem isScheme_map_smallLetter {s : Text} (h : isScheme s = true) :
    isScheme (s.map Text.smallLetter) = true ∧
      (s.map Text.smallLetter).map Text.smallLetter = s.map Text.smallLetter := by
  rw [isScheme, Bool.and_eq_true, List.all_eq_true] at h
  obtain ⟨hfirst, hall⟩ := h
  refine ⟨?_, ?_⟩
  · rw [isScheme, Bool.and_eq_true, List.all_map, List.all_eq_true]
    refine ⟨?_, fun c hc => (isSchemeChar_smallLetter (hall c hc)).1⟩
    cases s with
    | nil => cases hfirst
    | cons c s => exact (isSchemeChar_smallLetter (hall c List.mem_cons_self)).2.2 hfirst
  · rw [List.map_map]
    exact List.map_congr_left fun c hc => (isSchemeChar_smallLetter (hall c hc)).2.1

/-- `isScheme` holds of no text with a character that a scheme cannot hold. -/
theorem isScheme_eq_false {s : Text} {c : CodePoint} (hc : c ∈ s) (h : isSchemeChar c = false) :
    isScheme s = false := by
  rw [isScheme, Bool.and_eq_false_iff, List.all_eq_false]
  exact .inr ⟨c, hc, by simp [h]⟩

/-- `isScheme` texts hold no character that a scheme cannot hold. -/
theorem notMem_of_isScheme {s : Text} (hs : isScheme s = true) {c : CodePoint}
    (h : isSchemeChar c = false) : c ∉ s :=
  fun hc => Bool.false_ne_true ((isScheme_eq_false hc h).symm.trans hs)

/-! ## Cutting -/

/-- `cutBefore` does not look behind a text that is followed by a character of the class. -/
theorem cutBefore_append {stop : CodePoint → Bool} {b : Text}
    (hb : ∀ c, b.head? = some c → stop c = true) (a : Text) :
    cutBefore stop (a ++ b) = ((cutBefore stop a).1, (cutBefore stop a).2 ++ b) := by
  induction a with
  | nil =>
    cases b with
    | nil => rfl
    | cons c b => simp [cutBefore, hb c rfl]
  | cons c a ih =>
    simp only [cutBefore, Prod.mk.injEq] at ih ⊢
    cases hstop : stop c with
    | true => simp [hstop]
    | false => simp [hstop, ih]

/-- `cutBefore` leaves a text without characters of the class whole. -/
theorem cutBefore_eq_self {stop : CodePoint → Bool} {a : Text} (ha : ∀ c ∈ a, stop c = false) :
    cutBefore stop a = (a, []) := by
  rw [cutBefore, Prod.mk.injEq, List.takeWhile_eq_self_iff, List.dropWhile_eq_nil_iff]
  exact ⟨fun c hc => by simp [ha c hc], fun c hc => by simp [ha c hc]⟩

/-- `cutAfter` cuts at the first place of the character. -/
theorem cutAfter_append {c : CodePoint} {a : Text} (ha : c ∉ a) (b : Text) :
    cutAfter c (a ++ c :: b) = (a, b) := by
  rw [cutAfter, Text.breakOn_singleton ha]
  rfl

/-- `cutAfter` leaves a text without the character whole. -/
theorem cutAfter_eq_self {c : CodePoint} {a : Text} (ha : c ∉ a) : cutAfter c a = (a, []) := by
  rw [cutAfter, Text.breakOn_eq_none ha]
  rfl

/-- `cutAfter` cuts off again what is written behind a delimiter, if it is not empty. -/
theorem cutAfter_optional {c : CodePoint} {a : Text} (ha : c ∉ a) (b : Text) :
    cutAfter c (a ++ if b = [] then [] else c :: b) = (a, b) := by
  split
  · rename_i hb
    rw [List.append_nil, cutAfter_eq_self ha, hb]
  · exact cutAfter_append ha b

/-- `cutAfter` cuts off a front that does not hold the character, and leaves an end of the text. -/
theorem cutAfter_spec (c : CodePoint) (s : Text) :
    c ∉ (cutAfter c s).1 ∧ (cutAfter c s).1 <+: s ∧ (cutAfter c s).2 <:+ s := by
  rw [cutAfter]
  cases hbreak : Text.breakOn [c] s with
  | none => exact ⟨Text.breakOn_singleton_eq_none_iff.1 hbreak, List.prefix_rfl, List.nil_suffix⟩
  | some found =>
    obtain ⟨before, rest⟩ := found
    have hs : s = before ++ ([c] ++ rest) := Text.eq_append_of_breakOn hbreak
    refine ⟨Text.notMem_of_breakOn_singleton hbreak, ⟨[c] ++ rest, hs.symm⟩,
      before ++ [c], ?_⟩
    rw [hs, List.append_assoc]
    rfl

namespace Location

/-! ## The steps of cutting -/

/-- Cuts off the scheme. -/
def splitScheme (url : Text) : Text × Text :=
  match Text.breakOn [':'] url with
  | some (scheme, rest) => if isScheme scheme then (scheme.map Text.smallLetter, rest) else ([], url)
  | none => ([], url)

/-- Cuts off the authority. -/
def splitAuthority (url : Text) : Text × Text :=
  match Text.after? ['/', '/'] url with
  | some rest => cutBefore endsAuthority rest
  | none => ([], url)

/-- The parts of what is behind an authority: the path, the query and the fragment. -/
def splitPath (url : Text) : Text × Text × Text :=
  let front := cutAfter '#' url
  let parts := cutAfter '?' front.1
  (parts.1, parts.2, front.2)

/-- `parse` cuts a URL in four steps. -/
theorem parse_eq (url : Text) :
    parse url =
      let scheme := splitScheme (clean url)
      let authority := splitAuthority scheme.2
      let parts := splitPath authority.2
      (checkAuthority authority.1).map fun () =>
        ⟨scheme.1, authority.1, parts.1, parts.2.1, parts.2.2⟩ :=
  rfl

/-- `splitScheme` cuts off a scheme at a colon; what stands before the first colon is none
otherwise. -/
theorem splitScheme_spec (url : Text) :
    (splitScheme url = ([], url) ∧
        ∀ before rest, Text.breakOn [':'] url = some (before, rest) → isScheme before = false) ∨
      ∃ scheme rest, url = scheme ++ .char ':' :: rest ∧ isScheme scheme = true ∧
        splitScheme url = (scheme.map Text.smallLetter, rest) := by
  rw [splitScheme]
  cases hbreak : Text.breakOn [':'] url with
  | none => exact .inl ⟨rfl, fun before rest h => by cases h⟩
  | some found =>
    obtain ⟨scheme, rest⟩ := found
    cases hscheme : isScheme scheme with
    | true => exact .inr ⟨scheme, rest, Text.eq_append_of_breakOn hbreak, hscheme, if_pos hscheme⟩
    | false =>
      refine .inl ⟨if_neg (by simp [hscheme]), fun before' rest' h => ?_⟩
      cases h
      exact hscheme

/-- `splitScheme` cuts nothing off where there is no scheme, since a scheme is not empty. -/
theorem splitScheme_of_nil {url : Text} (h : (splitScheme url).1 = []) :
    splitScheme url = ([], url) ∧
      ∀ before rest, Text.breakOn [':'] url = some (before, rest) → isScheme before = false := by
  rcases splitScheme_spec url with hnone | ⟨scheme, rest, -, hscheme, hsplit⟩
  · exact hnone
  · rw [hsplit, List.map_eq_nil_iff] at h
    rw [h] at hscheme
    cases hscheme

/-- `splitScheme` leaves characters of the URL only. -/
theorem splitScheme_subset (url : Text) : (splitScheme url).2 ⊆ url := by
  rcases splitScheme_spec url with ⟨hsame, -⟩ | ⟨scheme, rest, hurl, -, hsplit⟩
  · rw [hsame]
    exact List.Subset.refl _
  · rw [hsplit, hurl]
    exact fun c hc => List.mem_append_right _ (List.mem_cons_of_mem _ hc)

/-- `splitAuthority` cuts off an authority behind two slashes. -/
theorem splitAuthority_spec (url : Text) :
    (splitAuthority url = ([], url) ∧ Text.after? ['/', '/'] url = none) ∨
      (url = .char '/' :: .char '/' :: ((splitAuthority url).1 ++ (splitAuthority url).2) ∧
        (∀ c ∈ (splitAuthority url).1, endsAuthority c = false) ∧
        ∀ c, (splitAuthority url).2.head? = some c → endsAuthority c = true) := by
  rw [splitAuthority]
  cases hafter : Text.after? ['/', '/'] url with
  | none => exact .inl ⟨rfl, rfl⟩
  | some rest =>
    refine .inr ⟨?_, fun c hc => ?_, fun c hc => ?_⟩
    · rw [Text.eq_append_of_after? hafter]
      simp only [cutBefore, List.takeWhile_append_dropWhile]
      rfl
    · simpa using List.mem_takeWhile_imp hc
    · have hhead := List.head?_dropWhile_not (fun c => !endsAuthority c) rest
      simp only [cutBefore] at hc
      rw [hc] at hhead
      simpa using hhead

/-- `splitAuthority` cuts a text into characters of it only. -/
theorem splitAuthority_subset (url : Text) :
    (splitAuthority url).1 ⊆ url ∧ (splitAuthority url).2 ⊆ url := by
  rcases splitAuthority_spec url with ⟨hsame, -⟩ | ⟨hurl, -, -⟩
  · rw [hsame]
    exact ⟨List.nil_subset _, List.Subset.refl _⟩
  · have hboth : (splitAuthority url).1 ++ (splitAuthority url).2 ⊆ url := by
      conv => rhs; rw [hurl]
      exact fun c hc => List.mem_cons_of_mem _ (List.mem_cons_of_mem _ hc)
    exact List.append_subset.1 hboth

/-- `splitPath` gives the front of what is behind an authority as the path, up to the query and the
fragment. -/
theorem splitPath_spec (url : Text) :
    (splitPath url).1 <+: url ∧ (splitPath url).2.2 <:+ url ∧
      CodePoint.char '?' ∉ (splitPath url).1 ∧ CodePoint.char '#' ∉ (splitPath url).1 := by
  obtain ⟨hhash, hfront, hfragment⟩ := cutAfter_spec '#' url
  obtain ⟨hquestion, hpath, -⟩ := cutAfter_spec '?' (cutAfter '#' url).1
  exact ⟨hpath.trans hfront, hfragment, hquestion, fun h => hhash (hpath.subset h)⟩

/-- `splitPath` behind an authority gives a path that begins with a slash, if there is one. -/
theorem head?_splitPath {url : Text} (hends : ∀ c, url.head? = some c → endsAuthority c = true) :
    ∀ c, (splitPath url).1.head? = some c → c = CodePoint.char '/' := by
  intro c hc
  obtain ⟨⟨rest, hrest⟩, -, hquestion, hhash⟩ := splitPath_spec url
  have hmem : c ∈ (splitPath url).1 := List.mem_of_head? hc
  have hend := hends c (by rw [← hrest, List.head?_append, hc]; rfl)
  simp only [endsAuthority, Bool.or_eq_true, decide_eq_true_eq] at hend
  rcases hend with (rfl | rfl) | rfl
  · rfl
  · exact absurd hmem hquestion
  · exact absurd hmem hhash

/-- `splitPath` gives a query of characters of the text only. -/
theorem query_splitPath_subset (url : Text) : (splitPath url).2.1 ⊆ url := by
  obtain ⟨-, hfront, -⟩ := cutAfter_spec '#' url
  obtain ⟨-, -, hquery⟩ := cutAfter_spec '?' (cutAfter '#' url).1
  exact fun c hc => hfront.subset (hquery.subset hc)

/-! ## What the parts are like -/

/-- What the parts of a URL are like. -/
structure Parsed (l : Location) : Prop where
  scheme : l.scheme = [] ∨
    isScheme l.scheme = true ∧ l.scheme.map Text.smallLetter = l.scheme
  authority : ∀ c ∈ l.authority, endsAuthority c = false
  path : CodePoint.char '?' ∉ l.path ∧ CodePoint.char '#' ∉ l.path
  /-- A URL without a scheme begins with no blank. -/
  start : l.scheme = [] → ∀ c, l.path.head? = some c → 32 < c.toNat
  /-- Nothing in front of a path that could be taken for a scheme is missing. -/
  schemeless : l.scheme = [] → ∀ before rest,
    Text.breakOn [':'] l.path = some (before, rest) → isScheme before = false
  kept : ∀ c ∈ l.scheme ++ (l.authority ++ (l.path ++ l.fragment)), isKept c = true
  allowed : checkAuthority l.authority = .ok ()

/-- `clean` drops the control characters and spaces in front, and what is not kept. -/
theorem clean_spec (url : Text) :
    (∀ c ∈ clean url, isKept c = true) ∧ ∀ c, (clean url).head? = some c → 32 < c.toNat := by
  have hclean : clean url = (url.dropWhile (·.toNat ≤ 32)).filter isKept := rfl
  rw [hclean]
  refine ⟨fun c hc => (List.mem_filter.1 hc).2, fun c hc => ?_⟩
  cases hrest : url.dropWhile fun c : CodePoint => decide (c.toNat ≤ 32) with
  | nil =>
    rw [hrest] at hc
    cases hc
  | cons d rest =>
    have hhead := List.head?_dropWhile_not (fun c : CodePoint => decide (c.toNat ≤ 32)) url
    rw [hrest] at hc hhead
    have hd : 32 < d.toNat := by simpa using hhead
    -- the first character that is left is no tab and no line end
    rw [List.filter_cons_of_pos (isKept_of_lt hd), List.head?_cons, Option.some.injEq] at hc
    exact hc ▸ hd

/-- `clean` leaves a text in which there is nothing to drop. -/
theorem clean_eq_self {url : Text} (hkept : ∀ c ∈ url, isKept c = true)
    (hstart : ∀ c, url.head? = some c → 32 < c.toNat) : clean url = url := by
  have hclean : clean url = (url.dropWhile (·.toNat ≤ 32)).filter isKept := rfl
  have hdrop : url.dropWhile (·.toNat ≤ 32) = url := by
    cases url with
    | nil => rfl
    | cons c url => exact List.dropWhile_cons_of_neg (by simpa using hstart c rfl)
  rw [hclean, hdrop, List.filter_eq_self.2 hkept]

/-- `isScheme` does not hold of what stands before a colon of a text that begins with a slash. -/
theorem isScheme_before_of_slash {s before rest : Text} (h : s.head? = some (.char '/'))
    (hbreak : Text.breakOn [':'] s = some (before, rest)) : isScheme before = false := by
  have hs : s = before ++ .char ':' :: rest := Text.eq_append_of_breakOn hbreak
  cases before with
  | nil => rfl
  | cons c before =>
    rw [hs, List.cons_append, List.head?_cons, Option.some.injEq] at h
    exact isScheme_eq_false List.mem_cons_self (h ▸ by decide)

/-- `parse` finds the path of a URL without a scheme at its front, or behind a slash. -/
theorem path_of_parse {url : Text} {l : Location} (h : parse url = .ok l) (hscheme : l.scheme = []) :
    l.path <+: clean url ∨ l.path.head? = some (.char '/') := by
  rw [parse_eq] at h
  obtain ⟨⟨⟩, -, rfl⟩ := Except.map_eq_ok h
  dsimp only at hscheme ⊢
  have hrest : (splitScheme (clean url)).2 = clean url :=
    congrArg Prod.snd (splitScheme_of_nil hscheme).1
  rw [hrest]
  have hprefix := (splitPath_spec (splitAuthority (clean url)).2).1
  rcases splitAuthority_spec (clean url) with ⟨hsame, -⟩ | ⟨-, -, hends⟩
  · rw [hsame] at hprefix ⊢
    exact .inl hprefix
  · cases hpath : (splitPath (splitAuthority (clean url)).2).1 with
    | nil => exact .inl List.nil_prefix
    | cons c path => exact .inr (congrArg some (head?_splitPath hends c (by rw [hpath]; rfl)))

/-- `parse` of a URL without a scheme finds a path that begins with no blank, and holds no colon behind
what could be a scheme. -/
theorem path_start_of_parse {url : Text} {l : Location} (h : parse url = .ok l)
    (hscheme : l.scheme = []) :
    (∀ c, l.path.head? = some c → 32 < c.toNat) ∧
      ∀ before rest, Text.breakOn [':'] l.path = some (before, rest) → isScheme before = false := by
  rcases path_of_parse h hscheme with ⟨more, hmore⟩ | hslash
  · refine ⟨fun c hc => (clean_spec url).2 c (by rw [← hmore, List.head?_append, hc]; rfl),
      fun before rest hbreak => ?_⟩
    have hnone : ∀ before rest, Text.breakOn [':'] (clean url) = some (before, rest) →
        isScheme before = false := by
      rw [parse_eq] at h
      obtain ⟨⟨⟩, -, rfl⟩ := Except.map_eq_ok h
      exact (splitScheme_of_nil hscheme).2
    -- what stands before a colon of the path stands before the first colon of the URL
    have hpath := Text.eq_append_of_breakOn hbreak
    refine hnone before (rest ++ more) ?_
    rw [← hmore, hpath, List.append_assoc]
    exact Text.breakOn_singleton (Text.notMem_of_breakOn_singleton hbreak) _
  · refine ⟨fun c hc => ?_, fun before rest => isScheme_before_of_slash hslash⟩
    rw [hslash, Option.some.injEq] at hc
    exact hc ▸ by decide

/-- `parse` finds parts of characters that are not dropped. -/
theorem isKept_of_parse {url : Text} {l : Location} (h : parse url = .ok l) :
    ∀ c ∈ l.scheme ++ (l.authority ++ (l.path ++ l.fragment)), isKept c = true := by
  rw [parse_eq] at h
  obtain ⟨⟨⟩, -, rfl⟩ := Except.map_eq_ok h
  have hkept := (clean_spec url).1
  have hrest := splitScheme_subset (clean url)
  have hauthority := splitAuthority_subset (splitScheme (clean url)).2
  obtain ⟨hpath, hfragment, -⟩ := splitPath_spec (splitAuthority (splitScheme (clean url)).2).2
  intro c hc
  rcases List.mem_append.1 hc with hc | hc
  · -- the scheme is written in small letters
    rcases splitScheme_spec (clean url) with ⟨hsame, -⟩ | ⟨scheme, rest, -, hscheme, hsplit⟩
    · rw [hsame] at hc
      cases hc
    · rw [hsplit] at hc
      have hsmall := (isScheme_map_smallLetter hscheme).1
      rw [isScheme, Bool.and_eq_true, List.all_eq_true] at hsmall
      exact isKept_of_lt (lt_of_isSchemeChar (hsmall.2 c hc))
  · rcases List.mem_append.1 hc with hc | hc
    · exact hkept c (hrest (hauthority.1 hc))
    · rcases List.mem_append.1 hc with hc | hc
      · exact hkept c (hrest (hauthority.2 (hpath.subset hc)))
      · exact hkept c (hrest (hauthority.2 (hfragment.subset hc)))

/-- `Parsed` holds of the parts of every URL that is accepted. -/
theorem Parsed.of_parse {url : Text} {l : Location} (h : parse url = .ok l) : l.Parsed := by
  have hkept := isKept_of_parse h
  have hstart := path_start_of_parse h
  rw [parse_eq] at h
  obtain ⟨⟨⟩, hallowed, rfl⟩ := Except.map_eq_ok h
  obtain ⟨-, -, hquestion, hhash⟩ := splitPath_spec (splitAuthority (splitScheme (clean url)).2).2
  refine ⟨?_, ?_, ⟨hquestion, hhash⟩, fun hnil => (hstart hnil).1, fun hnil => (hstart hnil).2, hkept,
    hallowed⟩
  · rcases splitScheme_spec (clean url) with ⟨hsame, -⟩ | ⟨scheme, rest, -, hfound, hsplit⟩
    · exact .inl (congrArg Prod.fst hsame)
    · right
      rw [hsplit]
      exact isScheme_map_smallLetter hfound
  · rcases splitAuthority_spec (splitScheme (clean url)).2 with ⟨hsame, -⟩ | ⟨-, hinside, -⟩
    · rw [hsame]
      exact fun c hc => absurd hc List.not_mem_nil
    · exact hinside

/-! ## Reading what is written -/

/-- The query and the fragment as they are written. -/
def tail (l : Location) : Text :=
  (if l.query = [] then [] else .char '?' :: l.query) ++
    if l.fragment = [] then [] else .char '#' :: l.fragment

/-- The authority and the path as they are written. -/
def front (l : Location) : Text :=
  if l.authority ≠ [] ∨ (l.scheme ∈ authoritySchemes ∧ (Text.after? ['/', '/'] l.path).isNone) then
    .char '/' :: .char '/' :: (l.authority ++
      if l.path ≠ [] ∧ l.path.head? ≠ some '/' then .char '/' :: l.path else l.path)
  else l.path

/-- `render` writes the scheme, then `front` and `tail`. -/
theorem render_eq (l : Location) :
    l.render = (if l.scheme = [] then [] else l.scheme ++ [.char ':']) ++ (l.front ++ l.tail) := by
  have hslashes : Text.ofString "//" = [.char '/', .char '/'] := by decide
  have hcolon : Text.ofString ":" = [.char ':'] := by decide
  have hquestion : Text.ofString "?" = [.char '?'] := by decide
  have hhash : Text.ofString "#" = [.char '#'] := by decide
  simp only [render, front, tail, hslashes, hcolon, hquestion, hhash]
  by_cases hscheme : l.scheme = [] <;> by_cases hquery : l.query = [] <;>
    by_cases hfragment : l.fragment = [] <;> simp [hscheme, hquery, hfragment]

/-- The authority that is read of a URL as it is written. Where there is none, a path that begins with two
slashes is taken for one. -/
def readAuthority (l : Location) : Text :=
  if l.authority = [] then (splitAuthority l.path).1 else l.authority

/-- `tail` begins with a delimiter. -/
theorem head?_tail (l : Location) :
    ∀ c, l.tail.head? = some c → c = CodePoint.char '?' ∨ c = CodePoint.char '#' := by
  intro c hc
  rw [tail] at hc
  split at hc
  · split at hc
    · cases hc
    · exact .inr (Option.some.inj hc).symm
  · exact .inl (Option.some.inj hc).symm

/-- `tail` ends an authority. -/
theorem endsAuthority_head?_tail (l : Location) :
    ∀ c, l.tail.head? = some c → endsAuthority c = true := by
  intro c hc
  rcases l.head?_tail c hc with rfl | rfl
  · decide
  · decide

/-- `splitPath` finds the query and the fragment behind any path that holds no delimiter. -/
theorem splitPath_tail {l : Location} {path : Text} (hquestion : CodePoint.char '?' ∉ path)
    (hhash : CodePoint.char '#' ∉ path) (hquery : CodePoint.char '#' ∉ l.query) :
    splitPath (path ++ l.tail) = (path, l.query, l.fragment) := by
  have hfront : CodePoint.char '#' ∉
      path ++ if l.query = [] then [] else CodePoint.char '?' :: l.query := by
    rw [List.mem_append, not_or]
    refine ⟨hhash, ?_⟩
    split
    · exact List.not_mem_nil
    · exact List.not_mem_cons_of_ne_of_not_mem (by decide) hquery
  rw [splitPath, tail, ← List.append_assoc, cutAfter_optional hfront]
  simp only [cutAfter_optional hquestion]

/-- `splitAuthority` looks for an authority in front of a query and a fragment only. -/
theorem splitAuthority_append_tail (l : Location) (s : Text) :
    splitAuthority (s ++ l.tail) = ((splitAuthority s).1, (splitAuthority s).2 ++ l.tail) := by
  cases hafter : Text.after? ['/', '/'] s with
  | none =>
    -- the delimiter is no slash, so it cannot be one of the two that are looked for
    have hnone : Text.after? ['/', '/'] (s ++ l.tail) = none := by
      refine Text.after?_append_eq_none hafter fun c hc => ?_
      rcases l.head?_tail c hc with rfl | rfl
      · decide
      · decide
    rw [splitAuthority, splitAuthority, hnone, hafter]
  | some rest =>
    have hsome : Text.after? ['/', '/'] (s ++ l.tail) = some (rest ++ l.tail) := by
      rw [Text.eq_append_of_after? hafter, List.append_assoc]
      exact Text.after?_append _ _
    rw [splitAuthority, splitAuthority, hsome, hafter]
    exact cutBefore_append l.endsAuthority_head?_tail rest

/-- `splitAuthority` finds in `front` the authority that is read, and leaves a path. -/
theorem Parsed.splitAuthority_front {l : Location} (h : l.Parsed) :
    ∃ path, CodePoint.char '?' ∉ path ∧ CodePoint.char '#' ∉ path ∧
      splitAuthority l.front = (l.readAuthority, path) := by
  obtain ⟨hquestion, hhash⟩ := h.path
  rw [front]
  split
  · rename_i hauthority
    have hread : l.readAuthority = l.authority := by
      rw [readAuthority]
      split
      · rename_i hnil
        obtain ⟨-, hnone⟩ := hauthority.resolve_left (not_not.2 hnil)
        rw [splitAuthority, Option.isNone_iff_eq_none.1 hnone, hnil]
      · rfl
    have hslashes (path : Text) (hends : ∀ c, path.head? = some c → endsAuthority c = true) :
        splitAuthority (.char '/' :: .char '/' :: (l.authority ++ path)) = (l.readAuthority, path) := by
      have hsome : Text.after? ['/', '/'] (.char '/' :: .char '/' :: (l.authority ++ path)) =
          some (l.authority ++ path) :=
        Text.after?_append ['/', '/'] _
      rw [splitAuthority, hsome]
      simp only [cutBefore_append hends, cutBefore_eq_self h.authority, hread, List.nil_append]
    -- a path is written so that it begins with a slash, if it is not empty
    split
    · refine ⟨.char '/' :: l.path, ?_, ?_, hslashes _ fun c hc => ?_⟩
      · exact List.not_mem_cons_of_ne_of_not_mem (by decide) hquestion
      · exact List.not_mem_cons_of_ne_of_not_mem (by decide) hhash
      · exact (Option.some.inj hc) ▸ by decide
    · rename_i hrooted
      refine ⟨l.path, hquestion, hhash, hslashes _ fun c hc => ?_⟩
      have hne : l.path ≠ [] := fun hnil => by rw [hnil] at hc; cases hc
      have hslash : l.path.head? = some (.char '/') := by
        by_contra hne'
        exact hrooted ⟨hne, hne'⟩
      rw [hslash] at hc
      exact (Option.some.inj hc) ▸ by decide
  · rename_i hauthority
    have hnil : l.authority = [] := not_not.1 (not_or.1 hauthority).1
    rw [readAuthority, if_pos hnil]
    have hsubset := (splitAuthority_subset l.path).2
    exact ⟨_, fun hmem => hquestion (hsubset hmem), fun hmem => hhash (hsubset hmem), rfl⟩

/-- `splitScheme` takes nothing for a scheme in a URL without one. -/
theorem Parsed.splitScheme_front {l : Location} (h : l.Parsed) (hnil : l.scheme = []) :
    splitScheme (l.front ++ l.tail) = ([], l.front ++ l.tail) := by
  rcases splitScheme_spec (l.front ++ l.tail) with ⟨hsame, -⟩ | ⟨scheme, rest, hurl, hscheme, -⟩
  · exact hsame
  exfalso
  -- a scheme holds neither the colon behind it nor what begins the rest of the URL
  have hnotMem {c : CodePoint} (hc : isSchemeChar c = false) : c ∉ scheme :=
    notMem_of_isScheme hscheme hc
  have hbreak (more : Text) : Text.breakOn [':'] (scheme ++ .char ':' :: more) = some (scheme, more) :=
    Text.breakOn_singleton (hnotMem (by decide)) more
  rw [front] at hurl
  split at hurl
  · refine Bool.false_ne_true ((isScheme_before_of_slash ?_ (hbreak rest)).symm.trans hscheme)
    rw [← hurl]
    rfl
  · rcases List.append_eq_append_iff.1 hurl with ⟨more, hmore, htail⟩ | ⟨more, hpath, hmore⟩
    · cases more with
      | nil => exact absurd (l.head?_tail _ (by rw [htail]; rfl)) (by decide)
      | cons c more =>
        have hmem : c ∈ scheme := by
          rw [hmore]
          exact List.mem_append_right _ List.mem_cons_self
        rcases l.head?_tail c (by rw [htail]; rfl) with rfl | rfl
        · exact hnotMem (by decide) hmem
        · exact hnotMem (by decide) hmem
    · cases more with
      | nil => exact absurd (l.head?_tail _ (by rw [← List.nil_append l.tail, ← hmore]; rfl)) (by decide)
      | cons c more =>
        obtain ⟨rfl, -⟩ := List.cons.inj hmore
        refine Bool.false_ne_true ((h.schemeless hnil scheme more ?_).symm.trans hscheme)
        rw [hpath]
        exact hbreak more

/-- `splitScheme` cuts off the scheme that was written. -/
theorem Parsed.splitScheme_render {l : Location} (h : l.Parsed) :
    splitScheme l.render = (l.scheme, l.front ++ l.tail) := by
  rw [render_eq]
  rcases h.scheme with hnil | ⟨hscheme, hsmall⟩
  · rw [hnil, if_pos rfl, List.nil_append]
    exact h.splitScheme_front hnil
  · have hne : l.scheme ≠ [] := fun hnil => by rw [hnil] at hscheme; cases hscheme
    have hcolon : CodePoint.char ':' ∉ l.scheme := notMem_of_isScheme hscheme (by decide)
    rw [if_neg hne, List.append_assoc, List.singleton_append, splitScheme,
      Text.breakOn_singleton hcolon]
    simp only [hscheme, if_true, hsmall]

/-- `front` holds slashes and the characters of the authority and the path. -/
theorem mem_front {l : Location} {c : CodePoint} (hc : c ∈ l.front) :
    c = CodePoint.char '/' ∨ c ∈ l.authority ∨ c ∈ l.path := by
  rw [front] at hc
  split at hc
  · rw [List.mem_cons, List.mem_cons, List.mem_append] at hc
    rcases hc with hc | hc | hc | hc
    · exact .inl hc
    · exact .inl hc
    · exact .inr (.inl hc)
    · split at hc
      · exact (List.mem_cons.1 hc).imp_right .inr
      · exact .inr (.inr hc)
  · exact .inr (.inr hc)

/-- `tail` holds delimiters and the characters of the query and the fragment. -/
theorem mem_tail {l : Location} {c : CodePoint} (hc : c ∈ l.tail) :
    c = CodePoint.char '?' ∨ c = CodePoint.char '#' ∨ c ∈ l.query ∨ c ∈ l.fragment := by
  rw [tail, List.mem_append] at hc
  rcases hc with hc | hc
  · split at hc
    · cases hc
    · exact (List.mem_cons.1 hc).imp_right fun hc => .inr (.inl hc)
  · split at hc
    · cases hc
    · exact .inr ((List.mem_cons.1 hc).imp_right .inr)

/-- `front` begins with no blank where there is no scheme. -/
theorem Parsed.head?_front {l : Location} (h : l.Parsed) (hnil : l.scheme = []) :
    ∀ c, (l.front ++ l.tail).head? = some c → 32 < c.toNat := by
  intro c hc
  rw [front] at hc
  split at hc
  · exact (Option.some.inj hc) ▸ by decide
  · cases hpath : l.path with
    | nil =>
      rw [hpath, List.nil_append] at hc
      rcases l.head?_tail c hc with rfl | rfl
      · decide
      · decide
    | cons d path =>
      rw [hpath] at hc
      exact h.start hnil c (by rw [hpath]; exact hc)

/-- `clean` drops nothing from a URL that is written. -/
theorem Parsed.clean_render {l : Location} (h : l.Parsed)
    (hquery : ∀ c ∈ l.query, isQueryChar c = true) : clean l.render = l.render := by
  have hkept {c : CodePoint} (hc : c ∈ l.scheme ∨ c ∈ l.authority ∨ c ∈ l.path ∨ c ∈ l.fragment) :
      isKept c = true :=
    h.kept c (by simpa only [List.mem_append] using hc)
  rw [render_eq]
  -- no character of a part is dropped, and neither is what stands between the parts
  refine clean_eq_self (fun c hc => ?_) fun c hc => ?_
  · rw [List.mem_append, List.mem_append] at hc
    rcases hc with hc | hc | hc
    · split at hc
      · cases hc
      · rcases List.mem_append.1 hc with hc | hc
        · exact hkept (.inl hc)
        · exact (List.mem_singleton.1 hc) ▸ by decide
    · rcases mem_front hc with rfl | hc | hc
      · decide
      · exact hkept (.inr (.inl hc))
      · exact hkept (.inr (.inr (.inl hc)))
    · rcases mem_tail hc with rfl | rfl | hc | hc
      · decide
      · decide
      · exact isKept_of_lt (lt_of_isQueryChar (hquery c hc))
      · exact hkept (.inr (.inr (.inr hc)))
  · rcases h.scheme with hnil | ⟨hscheme, -⟩
    · rw [hnil, if_pos rfl, List.nil_append] at hc
      exact h.head?_front hnil c hc
    · -- the first character of a scheme is a letter
      cases hname : l.scheme with
      | nil =>
        rw [hname] at hscheme
        cases hscheme
      | cons d name =>
        rw [hname, if_neg (List.cons_ne_nil _ _)] at hc
        obtain rfl : d = c := Option.some.inj hc
        rw [hname, isScheme, Bool.and_eq_true, List.all_eq_true] at hscheme
        exact lt_of_isSchemeChar (hscheme.2 d List.mem_cons_self)

/-- `parse` cuts a URL that is put together at the same places, except that a path that begins with
two slashes is cut where there is no authority. Its query is what was written, but what is read as
an authority may be refused. -/
theorem Parsed.parse_render {l : Location} (h : l.Parsed)
    (hquery : ∀ c ∈ l.query, isQueryChar c = true) :
    ∃ path, parse l.render = (checkAuthority l.readAuthority).map fun () =>
      { l with authority := l.readAuthority, path } := by
  obtain ⟨path, hquestion, hhash, hfront⟩ := h.splitAuthority_front
  have hqueryHash : CodePoint.char '#' ∉ l.query := fun hmem =>
    absurd (hquery _ hmem) (by decide)
  refine ⟨path, ?_⟩
  rw [parse_eq, h.clean_render hquery, h.splitScheme_render]
  simp only [splitAuthority_append_tail, hfront, splitPath_tail hquestion hhash hqueryHash]

/-- `splitPath` finds the query that was written between the first question mark and the first
number sign. -/
theorem Parsed.query_splitPath_render {l : Location} (h : l.Parsed)
    (hquery : ∀ c ∈ l.query, isQueryChar c = true) : (splitPath l.render).2.1 = l.query := by
  -- nothing ahead of the query starts a query or a fragment
  have hfree {c : CodePoint} (hend : endsAuthority c = true) (hscheme : isSchemeChar c = false)
      (hcolon : c ≠ CodePoint.char ':') (hslash : c ≠ CodePoint.char '/') (hpath : c ∉ l.path) :
      c ∉ (if l.scheme = [] then [] else l.scheme ++ [.char ':']) ++ l.front := by
    rw [List.mem_append, not_or]
    refine ⟨?_, fun hmem => ?_⟩
    · split
      · exact List.not_mem_nil
      · rcases h.scheme with hnil | ⟨hname, -⟩
        · contradiction
        · rw [List.mem_append, List.mem_singleton, not_or]
          exact ⟨notMem_of_isScheme hname hscheme, hcolon⟩
    · -- the authority was cut at the first such code point, and the path is free of it by
      -- assumption
      rcases mem_front hmem with hmem | hmem | hmem
      · exact hslash hmem
      · exact Bool.false_ne_true ((h.authority c hmem).symm.trans hend)
      · exact hpath hmem
  have hhash : CodePoint.char '#' ∉ l.query := fun hmem => absurd (hquery _ hmem) (by decide)
  rw [render_eq, ← List.append_assoc, splitPath_tail
    (hfree (by decide) (by decide) (by decide) (by decide) h.path.1)
    (hfree (by decide) (by decide) (by decide) (by decide) h.path.2) hhash]

/-- `parse` finds a query that is a part of the text. -/
theorem query_subset_of_parse {url : Text} {l : Location} (h : parse url = .ok l) : l.query ⊆ url := by
  rw [parse_eq] at h
  obtain ⟨⟨⟩, -, rfl⟩ := Except.map_eq_ok h
  have hclean : clean url ⊆ url := fun c hc =>
    (List.dropWhile_sublist _).subset (List.filter_sublist.subset hc)
  have hscheme : (splitScheme (clean url)).2 ⊆ clean url := splitScheme_subset _
  exact fun c hc => hclean (hscheme ((splitAuthority_subset _).2 (query_splitPath_subset _ hc)))

end Location

end MeshLens.Url
