import MatchTemplate.Match.Group
import MatchTemplate.NameTable.Listing
import MatchTemplate.Template.Expansion

/-!
# Equal matches

A match that is put together from its groups remembers what was recorded, and nothing
else: the offset, the whole match, the values of the slots in their order, whether there
is a table of names, and for every name the value that was recorded last.  Two such
matches are equal exactly if all this is the same, and this is also what comes out when
they are compared part by part, with their names listed in any order.

A template can be read with a mere listing of the declared names, by going through all of
it at every reference.  The order of the listing is without effect on what is put out and
on what is reported (`expandListed_eq_expand`).  So equal matches expand every template
alike, however their names are listed (`ofGroups_eq_ofGroups_iff`).
-/

namespace MatchTemplate

/-! ### Expansion by a listing -/

namespace Match

/-- What a template can refer to in a match, where a reference by name is the longest one
of a listing. -/
def listedReferences (m : Match) (listing : List Entry) : References :=
  m.referencesBy (NameTable.resolveIn listing) NameTable.heads_of_resolveIn

/-- The texts that a match puts in, where a name stands for what the listing holds. -/
def listedInsertions (m : Match) (listing : List Entry) (source : Text) : Insertions :=
  { m.insertions source with
    names := fun name => (NameTable.findIn name listing).join.getD [] }

end Match

/-- The tokens of a template that is read with a listing of the names. -/
def Token.readListed (m : Match) (listing : List Entry) (template : Text) : List Token :=
  scan (first (m.listedReferences listing)) template

/-- Expands a template against a match whose names are listed in some order. -/
def expandListed (source : Text) (m : Match) (listing : List Entry) (template : Text) :
    Logged (Option Text) :=
  let tokens := Token.readListed m listing template
  ⟨some (tokens.flatMap (Token.render (m.listedInsertions listing source))),
    (Token.openings tokens).map .unresolvedName⟩

section AnyOrder

variable {m : Match} {listing : List Entry}

theorem Match.listedReferences_eq (h : m.table.Lists listing) :
    m.listedReferences listing = m.references :=
  m.referencesBy_eq NameTable.heads_of_resolveIn h.resolveIn_eq

theorem Match.listedInsertions_eq (h : m.table.Lists listing) (source : Text) :
    m.listedInsertions listing source = m.insertions source := by
  unfold listedInsertions insertions
  simp only [h.findIn_eq]
  rfl

/-- In whatever order the names of a match are listed, a template expands alike. -/
theorem expandListed_eq_expand (h : m.table.Lists listing) (source template : Text) :
    expandListed source m listing template = expand source (some m) template := by
  unfold expandListed Token.readListed
  rw [Match.listedReferences_eq h, Match.listedInsertions_eq h]
  rfl

end AnyOrder

/-! ### Equal matches -/

/-- Comparison of two matches part by part, where the names of both are listed in some
order. -/
def Match.agree (m : Match) (listing : List Entry) (m' : Match) (listing' : List Entry) : Bool :=
  m.whole == m'.whole && m.offset == m'.offset && m.slots == m'.slots &&
    m.hasNames == m'.hasNames && NameTable.agree listing listing'

namespace Match

/-- The order in which names are listed is without effect on a comparison. -/
theorem agree_iff {m m' : Match} {listing listing' : List Entry} (h : m.table.Lists listing)
    (h' : m'.table.Lists listing') : m.agree listing m' listing' ↔ m = m' := by
  unfold agree
  simp only [Bool.and_eq_true, beq_iff_eq, NameTable.agree_iff h h', and_assoc]
  constructor
  · rintro ⟨hwhole, hoffset, hslots, hnames, htable⟩
    exact ext_find? hoffset hwhole hslots hnames fun name => by rw [htable]
  · rintro rfl
    exact ⟨rfl, rfl, rfl, rfl, rfl⟩

/-- Matches are equal if and only if the same was recorded in them. -/
theorem ofGroups_eq_iff {offset offset' : Nat} {whole whole' : Text} {groups groups' : List Group} :
    ofGroups offset whole groups = ofGroups offset' whole' groups' ↔
      offset = offset' ∧ whole = whole' ∧
        groups.filterMap Group.slot? = groups'.filterMap Group.slot? ∧
        groups.any Group.hasTable = groups'.any Group.hasTable ∧
        ∀ name, Group.lastNamed? name groups = Group.lastNamed? name groups' := by
  constructor
  · intro h
    refine ⟨?_, ?_, ?_, ?_, fun name => ?_⟩
    · simpa using congrArg Match.offset h
    · simpa using congrArg Match.whole h
    · simpa using congrArg Match.slots h
    · simpa using congrArg Match.hasNames h
    · simpa using congrArg (fun m => m.table.find? name) h
  · rintro ⟨rfl, rfl, hslots, hnames, hlast⟩
    apply ext_find?
    · simp
    · simp
    · simpa using hslots
    · simpa using hnames
    · simpa using hlast

end Match

/-- Two matches that are put together from their groups are equal exactly if they have the
same offset and the same whole match, the same values went into their slots in the same
order, both of them or neither got a table of names, and for every name the last value
that was recorded is the same, or there is none in both.  Whatever the orders in which
their names are listed, comparing them part by part comes to the same, and if they are
equal, every template expands alike with both listings: to the expansion that does without
a listing, and with the same notices. -/
theorem ofGroups_eq_ofGroups_iff (offset offset' : Nat) (whole whole' : Text)
    (groups groups' : List Group) :
    let m := Match.ofGroups offset whole groups
    let m' := Match.ofGroups offset' whole' groups'
    (m = m' ↔
        offset = offset' ∧ whole = whole' ∧
          groups.filterMap Group.slot? = groups'.filterMap Group.slot? ∧
          groups.any Group.hasTable = groups'.any Group.hasTable ∧
          ∀ name, Group.lastNamed? name groups = Group.lastNamed? name groups') ∧
      ∀ listing listing', m.table.Lists listing → m'.table.Lists listing' →
        (m.agree listing m' listing' ↔ m = m') ∧
          (m = m' → ∀ source template,
            expandListed source m listing template = expandListed source m' listing' template ∧
              expandListed source m listing template = expand source (some m) template) := by
  intro m m'
  refine ⟨Match.ofGroups_eq_iff, fun listing listing' h h' => ⟨Match.agree_iff h h', ?_⟩⟩
  intro hsame source template
  have hlisted := expandListed_eq_expand h source template
  have hlisted' := expandListed_eq_expand h' source template
  exact ⟨by rw [hlisted, hlisted', hsame], hlisted⟩

/-- The names are declared in different orders, and one of them is recorded twice.  The
value that it had first is still in its slot. -/
theorem ofGroups_eq_ofGroups_iff_overwritten :
    let groups : List Group := [.named ['n'] (some ['a']), .named ['k'] (some ['b']),
      .named ['n'] none]
    let groups' : List Group := [.slot (some ['a']), .named ['k'] (some ['b']), .table,
      .named ['n'] none]
    let m := Match.ofGroups 0 ['a'] groups
    let m' := Match.ofGroups 0 ['a'] groups'
    let listing : List Entry := [⟨['n'], none⟩, ⟨['k'], some ['b']⟩]
    m.table.Lists listing ∧ m'.table.Lists listing.reverse ∧
      m.agree listing m' listing.reverse ∧ m = m' ∧
      expandListed [] m listing ['$', '<', 'n', '>', '$', '<', 'k', '>', '$', '1'] =
        expandListed [] m' listing.reverse ['$', '<', 'n', '>', '$', '<', 'k', '>', '$', '1'] := by
  intro groups groups' m m' listing
  have hlists : m.table.Lists listing := by decide
  have hlists' : m'.table.Lists listing.reverse := by decide
  obtain ⟨-, hlisted⟩ := ofGroups_eq_ofGroups_iff 0 0 ['a'] ['a'] groups groups'
  obtain ⟨hagree, hexpand⟩ := hlisted listing listing.reverse hlists hlists'
  have hagrees : m.agree listing m' listing.reverse := by decide
  have hsame : m = m' := hagree.1 hagrees
  exact ⟨hlists, hlists', hagrees, hsame, (hexpand hsame [] _).1⟩

/-- An empty table of names is not the same as none, and an unset name not the same as one
that is not declared. -/
example :
    Match.ofGroups 0 [] [.table] ≠ Match.ofGroups 0 [] [] ∧
      Match.ofGroups 0 [] [.named ['n'] none] ≠ Match.ofGroups 0 [] [.table, .slot none] := by
  decide

end MatchTemplate
