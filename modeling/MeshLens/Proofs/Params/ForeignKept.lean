import MeshLens.Channel
import MeshLens.Proofs.Params.ReadBack

/-!
# Parameters of others

A session keeps two parameters in a URL, and leaves those of other names as it read them: nothing is set or
erased among them, and their order stays. What it read of them is not all that the URL holds, though. Of a
name that comes twice only the last value is read, at the place of the first, so that the pairs are kept
just when their names are apart.

## Key results

- `Params.filter_changeAll`: changes of some names leave the entries of all others
- `Params.foreign_kept_iff`: when the pairs of other names are still in the URL that is written
-/

namespace MeshLens

open Text (hasHalf)
open Url (Location decodePairs)

namespace Params

/-! ## Changes of some names -/

/-- `change` of one name leaves the entries of all other names where they are. -/
theorem filter_change {keep : Text → Bool} (p : Params) {change : ParamChange}
    (h : keep change.name = false) :
    (p.change change).values.filter (fun entry => keep entry.1) =
      p.values.filter fun entry => keep entry.1 := by
  cases change with
  | set name value =>
    have hother : ¬keep name = true := Bool.not_eq_true _ ▸ h
    exact (Entries.filter_set keep p.values name value).trans (if_neg hother)
  | erase name =>
    refine (Entries.filter_erase keep p.values name).trans (Entries.erase_of_notMem fun hmem => ?_)
    obtain ⟨entry, hentry, rfl⟩ := List.mem_map.1 hmem
    exact Bool.false_ne_true (h.symm.trans (List.mem_filter.1 hentry).2)

/-- `changeAll` leaves the entries of names that are not changed where they are. -/
theorem filter_changeAll {keep : Text → Bool} (p : Params) {changes : List ParamChange}
    (h : ∀ change ∈ changes, keep change.name = false) :
    (p.changeAll changes).values.filter (fun entry => keep entry.1) =
      p.values.filter fun entry => keep entry.1 := by
  induction changes generalizing p with
  | nil => rfl
  | cons change changes ih =>
    rw [List.forall_mem_cons] at h
    exact (ih (p.change change) h.2).trans (filter_change p h.1)

/-! ## The names of the two inputs, and all others -/

/-- Whether neither input keeps its text under a name. -/
def isForeign (name : Text) : Bool :=
  decide (name ≠ Channel.find.parameter) && decide (name ≠ Channel.hide.parameter)

/-- The pairs of a query that neither input keeps. -/
def foreignPairs (query : Text) : List (Text × Text) :=
  (decodePairs query).filter fun pair => isForeign pair.1

/-- `isForeign` does not hold of the names under which the inputs keep their texts. -/
theorem isForeign_parameter (channel : Channel) : isForeign channel.parameter = false := by
  cases channel <;> rfl

/-- `changeAll` for the two inputs leaves what was read of the pairs of all other names. -/
theorem filter_isForeign_changeAll {p : Params} {l : Location} {changes : List ParamChange}
    (hvalues : p.values = Entries.ofPairs (decodePairs l.query))
    (hchanges : ∀ change ∈ changes, ∃ channel : Channel, change.name = channel.parameter) :
    (p.changeAll changes).values.filter (fun entry => isForeign entry.1) =
      Entries.ofPairs (foreignPairs l.query) := by
  rw [filter_changeAll p fun change hchange => ?_, hvalues, Entries.filter_ofPairs, foreignPairs]
  obtain ⟨channel, hname⟩ := hchanges change hchange
  rw [hname, isForeign_parameter]

/-- However the texts of the two inputs are set and erased, the pairs of all other names are in the URL that
is written just as they were in the one that was read, if no name comes twice among them and the parameters
are read back at all; and only if. In any case the text between the first question mark and the first number
sign holds each of these names once, at the place of its first and with the value of its last pair. -/
theorem foreign_kept_iff {url : Text} {p : Params} (h : ofUrl url = .ok p)
    {changes : List ParamChange}
    (hchanges : ∀ change ∈ changes, ∃ channel : Channel, change.name = channel.parameter) :
    let p' := p.changeAll changes
    ∃ l, Location.parse url = .ok l ∧
      ((∃ written l', p'.written? = some written ∧ Location.parse written = .ok l' ∧
          foreignPairs l'.query = foreignPairs l.query) ↔
        (Entries.names (foreignPairs l.query)).Nodup ∧ p'.halfRun? = none ∧ l.IsReadable) ∧
      (hasHalf url = false → (∀ change ∈ changes, change.isWhole = true) → p'.halfRun? = none) ∧
      ∀ written, p'.written? = some written →
        foreignPairs (Location.splitPath written).2.1 = Entries.ofPairs (foreignPairs l.query) := by
  intro p'
  obtain ⟨⟨l, hparse, hback⟩, hwhole, -, hread, -⟩ := readsBack_iff h changes
  obtain ⟨l₀, hparse₀, hlocation, hvalues, -⟩ := ofUrl_spec h
  obtain rfl : l = l₀ := Except.ok.inj (hparse.symm.trans hparse₀)
  have hforeign : p'.values.filter (fun entry => isForeign entry.1) =
      Entries.ofPairs (foreignPairs l.query) :=
    filter_isForeign_changeAll hvalues hchanges
  have hpairs {query : Text} (hquery : decodePairs query = p'.values) :
      foreignPairs query = Entries.ofPairs (foreignPairs l.query) := by
    rw [foreignPairs, hquery, hforeign]
  refine ⟨l, hparse, ⟨?_, ?_⟩, hwhole, fun written hwritten => hpairs (hread written hwritten).1⟩
  · -- a name that comes twice is read once, so the pairs differ
    rintro ⟨written, l', hwritten, hparse', hsame⟩
    have hquery := (hread written hwritten).2 l' hparse'
    exact ⟨Entries.ofPairs_eq_self_iff.1 ((hpairs hquery).symm.trans hsame),
      hback.1 ⟨written, l', hwritten, hparse', hquery⟩⟩
  · rintro ⟨hnodup, hreadable⟩
    obtain ⟨written, l', hwritten, hparse', hquery⟩ := hback.2 hreadable
    exact ⟨written, l', hwritten, hparse',
      (hpairs hquery).trans (Entries.ofPairs_eq_self_iff.2 hnodup)⟩

/-- A separator in a value, a blank value, a blank name and a malformed escape are kept. -/
theorem foreign_kept_iff_escapes :
    let url : Text := "http://h/p?a=%26&graphHide=x&b&=c&d=%C3+%zz"
    let changes : List ParamChange :=
      [.set Channel.find.parameter "n=1", .erase Channel.hide.parameter]
    ∃ p l written l', ofUrl url = .ok p ∧ Location.parse url = .ok l ∧
      (p.changeAll changes).written? = some written ∧ Location.parse written = .ok l' ∧
      foreignPairs l'.query = foreignPairs l.query ∧
      Entries.names (foreignPairs l.query) = ([['a'], ['b'], [], ['d']] : List Text) := by
  intro url changes
  -- the URL is parsed once, and what the general theorem asks is evaluated on its parts
  have hparse : Location.parse url =
      .ok ⟨"http", "h", "/p", "a=%26&graphHide=x&b&=c&d=%C3+%zz", []⟩ := by
    decide +kernel
  have hchannels : ∀ change ∈ changes, ∃ channel : Channel, change.name = channel.parameter := by
    rw [List.forall_mem_cons, List.forall_mem_singleton]
    exact ⟨⟨.find, rfl⟩, ⟨.hide, rfl⟩⟩
  obtain ⟨l, hl, hkept, hwhole, -⟩ := foreign_kept_iff (ofUrl_of_parse hparse) hchannels
  have hnames : Entries.names (foreignPairs l.query) = ([['a'], ['b'], [], ['d']] : List Text) := by
    rw [hparse] at hl
    cases hl
    decide +kernel
  have hreadable : l.IsReadable := by
    rw [hparse] at hl
    cases hl
    exact fun h => absurd h (by decide)
  obtain ⟨written, l', hwritten, hparse', hsame⟩ :=
    hkept.2 ⟨hnames ▸ by decide, hwhole (by decide) (by decide), hreadable⟩
  exact ⟨_, l, written, l', ofUrl_of_parse hparse, hl, hwritten, hparse', hsame, hnames⟩

/-- Of a name that comes twice the first value is lost when the text of an input is set. -/
theorem not_foreign_kept_repeated :
    let url : Text := "http://h/?a=1&b=2&a=3"
    let written : Text := "http://h/?a=3&b=2&graphFind=x"
    ∃ p l l', ofUrl url = .ok p ∧ Location.parse url = .ok l ∧
      (p.changeAll [.set Channel.find.parameter "x"]).written? = some written ∧
      Location.parse written = .ok l' ∧ foreignPairs l'.query ≠ foreignPairs l.query := by
  intro url written
  have hparse : Location.parse url = .ok ⟨"http", "h", "/", "a=1&b=2&a=3", []⟩ := by
    decide +kernel
  have hparse' : Location.parse written = .ok ⟨"http", "h", "/", "a=3&b=2&graphFind=x", []⟩ := by
    decide +kernel
  exact ⟨_, _, _, ofUrl_of_parse hparse, hparse, by decide +kernel, hparse', by decide +kernel⟩

end Params

end MeshLens
