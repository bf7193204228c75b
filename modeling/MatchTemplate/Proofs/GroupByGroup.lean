import MatchTemplate.Match.Findings
import MatchTemplate.NameTable.Spelled

/-!
# Matches read off the source

A match that is read off a source gets its slots by their numbers and its table by a
second pass, which looks every name up among the names of the groups.  If the names are
distinct, this is the match to which the groups are added one after the other, each
into its slot and under its name at once (`ofCaptures_eq_ofGroups`).
-/

namespace MatchTemplate

/-! ### Groups as they are added -/

namespace Group

/-- A group that has a slot, and a name as well if there is one. -/
def ofName (name? : Option Text) (value : Option Text) : Group :=
  match name? with
  | some name => .named name value
  | none => .slot value

variable (name? value : Option Text)

theorem slot?_ofName : (ofName name? value).slot? = some value := by
  cases name? <;> rfl

theorem hasTable_ofName : (ofName name? value).hasTable = name?.isSome := by
  cases name? <;> rfl

theorem valueOf?_ofName (name : Text) :
    (ofName name? value).valueOf? name = if name? = some name then some value else none := by
  cases name? with
  | none => rfl
  | some other => simp [ofName, valueOf?]

end Group

/-- A name that occurs once among the names of the groups is found at its place. -/
theorem idxOf?_eq_some_of_nodup {names : List (Option Text)} (h : (names.filterMap id).Nodup)
    {name : Text} {i : Nat} (hi : names[i]? = some (some name)) :
    names.idxOf? (some name) = some i := by
  induction names generalizing i with
  | nil => exact absurd hi (by simp)
  | cons name? rest ih =>
      rw [List.idxOf?_cons]
      cases i with
      | zero =>
          obtain rfl : name? = some name := Option.some.inj hi
          simp
      | succ i =>
          have hlater : some name ∈ rest := List.mem_of_getElem? hi
          cases name? with
          | none => simp [ih h hi]
          | some other =>
              obtain ⟨hother, hrest⟩ := List.nodup_cons.1 h
              have hne : other ≠ name := by
                rintro rfl
                exact hother (List.mem_filterMap.2 ⟨some other, hlater, rfl⟩)
              simp [hne, ih hrest hi]

section AddedInOrder

variable {names texts : List (Option Text)}

theorem filterMap_slot?_zipWith_ofName (h : names.length = texts.length) :
    (List.zipWith Group.ofName names texts).filterMap Group.slot? = texts := by
  induction names generalizing texts with
  | nil => exact (List.eq_nil_of_length_eq_zero h.symm).symm
  | cons name? names ih =>
      cases texts with
      | nil => exact absurd h (Nat.succ_ne_zero _)
      | cons text texts =>
          rw [List.zipWith_cons_cons, List.filterMap_cons, Group.slot?_ofName,
            ih (Nat.succ.inj h)]

theorem any_hasTable_zipWith_ofName (h : names.length = texts.length) :
    (List.zipWith Group.ofName names texts).any Group.hasTable = names.any Option.isSome := by
  induction names generalizing texts with
  | nil => rfl
  | cons name? names ih =>
      cases texts with
      | nil => exact absurd h (Nat.succ_ne_zero _)
      | cons text texts =>
          rw [List.zipWith_cons_cons, List.any_cons, List.any_cons, Group.hasTable_ofName,
            ih (Nat.succ.inj h)]

/-- Where no name occurs twice, a name stands for the text at its own place. -/
theorem lastNamed?_zipWith_ofName (h : names.length = texts.length)
    (hdistinct : (names.filterMap id).Nodup) (name : Text) :
    Group.lastNamed? name (List.zipWith Group.ofName names texts) =
      (names.idxOf? (some name)).map fun i => texts[i]?.join := by
  induction names generalizing texts with
  | nil => rfl
  | cons name? names ih =>
      cases texts with
      | nil => exact absurd h (Nat.succ_ne_zero _)
      | cons text texts =>
          have hrest : (names.filterMap id).Nodup :=
            hdistinct.sublist ((List.sublist_cons_self name? names).filterMap id)
          rw [List.zipWith_cons_cons, Group.lastNamed?, ih (Nat.succ.inj h) hrest,
            Group.valueOf?_ofName, List.idxOf?_cons]
          by_cases hname : name? = some name
          · -- the name does not occur further on
            have hlater : names.idxOf? (some name) = none := by
              rw [List.idxOf?_eq_none_iff]
              intro hmem
              rw [hname] at hdistinct
              exact (List.nodup_cons.1 hdistinct).1 (List.mem_filterMap.2 ⟨_, hmem, rfl⟩)
            simp [hname, hlater]
          · simp [hname, Function.comp_def]

end AddedInOrder

/-! ### Groups as they are read off -/

theorem NameTable.find?_foldl_insert (value : Text → Option Text) (names : List Text)
    (table : NameTable) (name : Text) :
    (names.foldl (fun table name => table.insert name (value name)) table).find? name =
      if name ∈ names then some (value name) else table.find? name := by
  induction names generalizing table with
  | nil => rfl
  | cons other names ih =>
      rw [List.foldl_cons, ih, NameTable.find?_insert]
      by_cases hmem : name ∈ names
      · simp [hmem]
      · by_cases hname : other = name
        · simp [hname]
        · simp [hmem, hname, Ne.symm hname]

/-- A name that is read off stands for the text of the first group that is called so. -/
theorem NameTable.find?_ofCaptures (source : Text) (groupNames : List (Option Text))
    (captures : Captures) (name : Text) :
    (NameTable.ofCaptures source groupNames captures).find? name =
      (groupNames.idxOf? (some name)).map (captures.text? source) := by
  have hmem : name ∈ groupNames.filterMap id ↔ some name ∈ groupNames := by simp
  rw [NameTable.ofCaptures, NameTable.find?_foldl_insert, Captures.namedText?]
  cases hindex : groupNames.idxOf? (some name) with
  | none =>
      rw [if_neg (mt hmem.1 (List.idxOf?_eq_none_iff.1 hindex))]
      rfl
  | some i =>
      have hdeclared : some name ∈ groupNames :=
        List.isSome_idxOf?.1 (Option.isSome_of_eq_some hindex)
      rw [if_pos (hmem.2 hdeclared)]
      rfl

namespace Match

variable (source : Text) (groupNames : List (Option Text)) (captures : Captures)

theorem hasNames_ofCaptures :
    (ofCaptures source groupNames captures).hasNames = groupNames.any Option.isSome := by
  unfold ofCaptures hasNames
  cases groupNames.any Option.isSome with
  | false => rfl
  | true => rfl

theorem hasNames_ofCaptures_iff :
    (ofCaptures source groupNames captures).hasNames ↔ ∃ name, some name ∈ groupNames := by
  rw [hasNames_ofCaptures, List.any_eq_true]
  constructor
  · rintro ⟨name?, hmem, hsome⟩
    obtain ⟨name, rfl⟩ := Option.isSome_iff_exists.1 hsome
    exact ⟨name, hmem⟩
  · rintro ⟨name, hmem⟩
    exact ⟨some name, hmem, rfl⟩

theorem find?_table_ofCaptures (name : Text) :
    (ofCaptures source groupNames captures).table.find? name =
      (groupNames.idxOf? (some name)).map (captures.text? source) := by
  rw [← NameTable.find?_ofCaptures]
  unfold ofCaptures table
  by_cases hnames : groupNames.any Option.isSome
  · rw [if_pos hnames]
    rfl
  · have hnone : (groupNames.idxOf? (some name)) = none := by
      rw [List.idxOf?_eq_none_iff]
      exact fun hmem => hnames (List.any_eq_true.2 ⟨some name, hmem, rfl⟩)
    rw [if_neg hnames, NameTable.find?_ofCaptures, hnone]
    rfl

theorem declares_ofCaptures (name : Text) :
    (ofCaptures source groupNames captures).table.declares name ↔ some name ∈ groupNames := by
  rw [NameTable.declares, find?_table_ofCaptures, Option.isSome_map, List.isSome_idxOf?]

theorem slots_ofCaptures :
    (ofCaptures source groupNames captures).slots = (captures.texts source).tail := by
  rw [Captures.texts, ← List.map_tail]
  rfl

theorem slot?_ofCaptures (n : Nat) :
    (ofCaptures source groupNames captures).slot? (n + 1) = captures.text? source (n + 1) := by
  rw [slot?_succ, slots_ofCaptures, Captures.text?_eq_texts, List.getElem?_tail]

variable {groupNames}

/-- A named group behind group zero holds the same by its name as by its number. -/
theorem value?_ofCaptures_succ (hdistinct : (groupNames.filterMap id).Nodup) {n : Nat}
    {name : Text} (hname : groupNames[n + 1]? = some (some name)) :
    (ofCaptures source groupNames captures).value? name =
      (ofCaptures source groupNames captures).slot? (n + 1) := by
  rw [slot?_ofCaptures, value?, NameTable.value?, find?_table_ofCaptures,
    idxOf?_eq_some_of_nodup hdistinct hname]
  rfl

/-- Where group zero has no name, this holds of every named group. -/
theorem value?_ofCaptures (hunnamed : groupNames.head? = some none)
    (hdistinct : (groupNames.filterMap id).Nodup) {n : Nat} {name : Text}
    (hname : groupNames[n]? = some (some name)) :
    (ofCaptures source groupNames captures).value? name =
      (ofCaptures source groupNames captures).slot? n := by
  cases n with
  | zero =>
      rw [← List.head?_eq_getElem?, hunnamed] at hname
      exact absurd (Option.some.inj hname) (Option.some_ne_none name).symm
  | succ n => exact value?_ofCaptures_succ source captures hdistinct hname

end Match

/-- The groups behind group zero have the other names and texts. -/
theorem Captures.groups_cons (source : Text) (names : List (Option Text)) (span? : Option Span)
    (captures : Captures) :
    Captures.groups (span? :: captures) source (none :: names) =
      List.zipWith Group.ofName names (captures.texts source) := by
  have hgroups : Captures.groups (span? :: captures) source (none :: names) =
      (names.zip captures).map fun entry =>
        Group.ofName entry.1 (entry.2.bind source.slice?) := rfl
  rw [hgroups, Captures.texts, List.zipWith_map_right, List.map_zip_eq_zipWith]
  rfl

/-! ### Both ways to the same match -/

section ReadOff

variable {source : Text} {names : List (Option Text)} {span? : Option Span} {captures : Captures}

/-- Adding the groups behind group zero one after the other gives the match that is read
off. -/
theorem ofCaptures_cons_eq_ofGroups (hdistinct : (names.filterMap id).Nodup)
    (hentries : names.length = captures.length)
    (hwhole : ∀ span ∈ span?, (source.slice? span).isSome) :
    Match.ofCaptures source (none :: names) (span? :: captures) =
      Match.ofGroups (Captures.span (span? :: captures)).start
        (source.slice (Captures.span (span? :: captures)))
        (Captures.groups (span? :: captures) source (none :: names)) := by
  have htexts : names.length = (captures.texts source).length := by
    rw [Captures.texts, List.length_map, hentries]
  have hslice :=
    @Match.slice?_eq_whole_ofCaptures source (span? :: captures) hwhole (none :: names)
  rw [Captures.groups_cons]
  apply Match.ext_find?
  · rw [Match.offset_ofGroups]
    exact Match.offset_ofCaptures source _ _
  · rw [Match.whole_ofGroups, Text.slice, hslice]
    rfl
  · rw [Match.slots_ofCaptures, Match.slots_ofGroups, filterMap_slot?_zipWith_ofName htexts]
    rfl
  · rw [Match.hasNames_ofCaptures, Match.hasNames_ofGroups, any_hasTable_zipWith_ofName htexts]
    rfl
  · intro name
    rw [Match.find?_table_ofCaptures, Match.find?_table_ofGroups,
      lastNamed?_zipWith_ofName htexts hdistinct, List.idxOf?_cons]
    cases names.idxOf? (some name) with
    | none => rfl
    | some i =>
        show some (Captures.text? (span? :: captures) source (i + 1)) = _
        rw [Captures.text?_eq_texts]
        rfl

end ReadOff

/-- A group whose span can be cut out of the source holds a text exactly if it took part. -/
theorem Captures.isSome_text? {source : Text} {captures : Captures}
    (hslices : ∀ span ∈ captures.filterMap id, (source.slice? span).isSome) (n : Nat) :
    (captures.text? source n).isSome = captures[n]?.join.isSome := by
  unfold Captures.text?
  cases hspan : captures[n]?.join with
  | none => rfl
  | some span =>
      have hmem : some span ∈ captures := List.mem_of_getElem? (Option.join_eq_some_iff.1 hspan)
      exact hslices span (List.mem_filterMap.2 ⟨some span, hmem, rfl⟩)

/-- Let group zero have no name and the other names be distinct, and let every group that
took part have a span that can be cut out of the source.  The match that is read off is
then the one that begins with the whole occurrence and to which the other groups are added
in the order of their numbers.  A slot holds the text of its group, and a named group holds
the same by its name.  There is a table of names exactly if some group has a name.  The
number of slots and the declared names are those of the pattern, whichever groups took
part, and the whole match is what stands in the source at its place. -/
theorem ofCaptures_eq_ofGroups {source : Text} {groupNames : List (Option Text)}
    {captures : Captures} (hunnamed : groupNames.head? = some none)
    (hdistinct : (groupNames.filterMap id).Nodup)
    (hentries : captures.length = groupNames.length)
    (hslices : ∀ span ∈ captures.filterMap id, (source.slice? span).isSome) :
    let m := Match.ofCaptures source groupNames captures
    m = Match.ofGroups captures.span.start (source.slice captures.span)
        (captures.groups source groupNames) ∧
      (∀ n, m.slot? (n + 1) = captures.text? source (n + 1) ∧
        (m.slot? (n + 1)).isSome = captures[n + 1]?.join.isSome) ∧
      (∀ n name, groupNames[n]? = some (some name) → m.value? name = m.slot? n) ∧
      (m.hasNames ↔ ∃ name, some name ∈ groupNames) ∧
      m.slots.length + 1 = groupNames.length ∧
      (∀ name, m.table.declares name ↔ some name ∈ groupNames) ∧
      source.slice? m.span = some m.whole := by
  intro m
  have hwhole : ∀ span ∈ captures.head?.join, (source.slice? span).isSome :=
    fun span hspan => hslices span (Captures.mem_of_head?_join hspan)
  refine ⟨?_, fun n => ⟨Match.slot?_ofCaptures source groupNames captures n, ?_⟩,
    fun n name => Match.value?_ofCaptures source captures hunnamed hdistinct,
    Match.hasNames_ofCaptures_iff source groupNames captures, ?_,
    Match.declares_ofCaptures source groupNames captures, ?_⟩
  · cases groupNames with
    | nil => exact absurd hunnamed (Option.some_ne_none _).symm
    | cons name? names =>
        obtain rfl : name? = none := Option.some.inj hunnamed
        cases captures with
        | nil => exact absurd hentries.symm (Nat.succ_ne_zero _)
        | cons span? captures =>
            exact ofCaptures_cons_eq_ofGroups hdistinct (Nat.succ.inj hentries).symm hwhole
  · rw [Match.slot?_ofCaptures, Captures.isSome_text? hslices]
  · have hpos : 0 < groupNames.length := List.length_pos_of_mem (List.mem_of_head? hunnamed)
    rw [Match.slots_ofCaptures, List.length_tail, Captures.texts, List.length_map, hentries]
    omega
  · rw [Match.span_ofCaptures hwhole groupNames]
    exact Match.slice?_eq_whole_ofCaptures hwhole groupNames

/-- The second group took no part, and the third one is empty and stands at the end. -/
theorem ofCaptures_eq_ofGroups_optional :
    let groupNames := [none, some ['é'], some ['n'], none, some []]
    let captures : Captures := [some ⟨1, 4⟩, some ⟨1, 3⟩, none, some ⟨4, 4⟩, some ⟨3, 4⟩]
    let m := Match.ofCaptures ['a', 'é', 'b'] groupNames captures
    groupNames.head? = some none ∧ (groupNames.filterMap id).Nodup ∧
      captures.length = groupNames.length ∧
      (∀ span ∈ captures.filterMap id, (Text.slice? ['a', 'é', 'b'] span).isSome) ∧
      m = Match.ofGroups 1 ['é', 'b'] [.named ['é'] (some ['é']), .named ['n'] none,
        .slot (some []), .named [] (some ['b'])] ∧
      m.value? [] = m.slot? 4 := by
  intro groupNames captures m
  have hunnamed : groupNames.head? = some none := rfl
  have hdistinct : (groupNames.filterMap id).Nodup := by decide
  have hentries : captures.length = groupNames.length := rfl
  have hslices : ∀ span ∈ captures.filterMap id, (Text.slice? ['a', 'é', 'b'] span).isSome := by
    decide
  obtain ⟨hmatch, -, hnames, -⟩ := ofCaptures_eq_ofGroups hunnamed hdistinct hentries hslices
  refine ⟨hunnamed, hdistinct, hentries, hslices, ?_, hnames 4 [] rfl⟩
  exact hmatch.trans (by decide)

end MatchTemplate
