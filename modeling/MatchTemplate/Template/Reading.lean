import MatchTemplate.Match.Basic
import MatchTemplate.NameTable.Longest
import MatchTemplate.Template.Token

/-!
# Reading a template

`Token.scan` divides a template into tokens by a rule that tells the first
token of a text that is not empty.  A rule is lawful when its tokens cover a
beginning of the text and are never empty.  The tokens of a lawful rule make up
the template (`lexemes_scan`), and after each of them reading starts afresh
(`scan_of_next`).

The rule `Token.first` depends on nothing but what the template can refer to:
on the slots that are set, and on the name that a reference by name stands for.
`Token.read` follows it with the references of a match, in which the longest
name that the match declares is meant.
-/

namespace MatchTemplate

/-- What a template can refer to: the slots that are set, and the name that a
reference by name stands for, given what follows its opening bracket.  A name
is referred to only where it stands and is closed. -/
@[ext] structure References where
  isSet : Fin 9 → Bool
  name? : Text → Option Text
  closed : ∀ {rest name : Text}, name? rest = some name → name ++ ['>'] <+: rest

namespace Match

/-- What a template can refer to in a match, where `find?` finds the entry that a
reference by name stands for. -/
def referencesBy (m : Match) (find? : Text → Option Entry)
    (heads : ∀ {rest : Text} {e : Entry}, find? rest = some e → e.Heads rest) : References where
  isSet index := (m.slot? (index + 1)).isSome
  name? rest := (find? rest).map Entry.name
  closed h := by
    obtain ⟨e, he, rfl⟩ := Option.map_eq_some_iff.1 h
    exact heads he

/-- What a template can refer to in a match. -/
def references (m : Match) : References :=
  m.referencesBy m.table.resolve? NameTable.heads_of_resolveIn

/-- Whatever finds the entries that the table finds comes to the same references. -/
theorem referencesBy_eq (m : Match) {find? : Text → Option Entry}
    (heads : ∀ {rest : Text} {e : Entry}, find? rest = some e → e.Heads rest)
    (h : ∀ rest, find? rest = m.table.resolve? rest) :
    m.referencesBy find? heads = m.references := by
  obtain rfl : find? = m.table.resolve? := funext h
  rfl

end Match

namespace Token

/-- The tokens of a template from which the first `skip` characters have been
read already. -/
def scanFrom (next : Char → Text → Token) : Nat → Text → List Token
  | _, [] => []
  | skip + 1, _ :: rest => scanFrom next skip rest
  | 0, c :: rest =>
      let token := next c rest
      token :: scanFrom next (token.lexeme.length - 1) rest

/-- The tokens of a template, by the rule `next` for the token that begins with
a character and may go on with the rest. -/
def scan (next : Char → Text → Token) (template : Text) : List Token :=
  scanFrom next 0 template

/-- The tokens of the rule cover a beginning of the text, and advance. -/
structure Lawful (next : Char → Text → Token) : Prop where
  append : ∀ c rest, ∃ tail, c :: rest = (next c rest).lexeme ++ tail
  ne_nil : ∀ c rest, (next c rest).lexeme ≠ []

/-- The token that a sigil begins when `rest` follows it. -/
def ofSigil (refs : References) (rest : Text) : Token :=
  match rest with
  | '$' :: _ => sigil
  | '&' :: _ => whole
  | '\x60' :: _ => before
  | '\x27' :: _ => after
  | '<' :: inner =>
      match refs.name? inner with
      | some name => named name
      | none => openBracket
  | c :: _ =>
      match slotIndex? c with
      | some index => if refs.isSet index then slot index else emptySlot index
      | none => loneSigil
  | [] => loneSigil

/-- The first token of the template that begins with `c` and goes on with
`rest`. -/
def first (refs : References) (c : Char) (rest : Text) : Token :=
  if c = '$' then ofSigil refs rest else literal (c :: rest.takeWhile (· != '$'))

/-- The tokens of a template that is read against a match. -/
def read (m : Match) (template : Text) : List Token := scan (first m.references) template

/-! ### Lawful rules -/

@[simp] theorem scan_nil (next : Char → Text → Token) : scan next [] = [] := rfl

theorem scanFrom_append (next : Char → Text → Token) (u v : Text) :
    scanFrom next u.length (u ++ v) = scan next v := by
  induction u with
  | nil => rfl
  | cons c u ih => simpa [scanFrom] using ih

variable {next : Char → Text → Token}

/-- After the first token, reading starts afresh. -/
theorem scan_of_next (h : Lawful next) {c : Char} {rest tail : Text} {token : Token}
    (hnext : next c rest = token) (htail : c :: rest = token.lexeme ++ tail) :
    scan next (c :: rest) = token :: scan next tail := by
  subst hnext
  cases hlex : (next c rest).lexeme with
  | nil => exact absurd hlex (h.ne_nil c rest)
  | cons c' lex =>
      -- the characters to skip are the rest of the lexeme
      obtain ⟨rfl, hrest⟩ : c = c' ∧ rest = lex ++ tail := by simpa [hlex] using htail
      have hscan : scanFrom next lex.length rest = scan next tail :=
        hrest ▸ scanFrom_append next lex tail
      simpa [scan, scanFrom, hlex] using hscan

/-- Induction along the tokens of a template. -/
theorem scan_induction {motive : Text → Prop} (h : Lawful next) (nil : motive [])
    (token : ∀ c rest tail, c :: rest = (next c rest).lexeme ++ tail →
      scan next (c :: rest) = next c rest :: scan next tail → motive tail →
      motive (c :: rest))
    (template : Text) : motive template := by
  match template with
  | [] => exact nil
  | c :: rest =>
      obtain ⟨tail, htail⟩ := h.append c rest
      have hshorter : tail.length < rest.length + 1 := by
        have hlen := congrArg List.length htail
        have hpos := List.length_pos_iff.2 (h.ne_nil c rest)
        simp only [List.length_cons, List.length_append] at hlen
        omega
      exact token c rest tail htail (scan_of_next h rfl htail) (scan_induction h nil token tail)
termination_by template.length

/-- The tokens of a template cover it without gaps. -/
theorem lexemes_scan (h : Lawful next) (template : Text) :
    lexemes (scan next template) = template := by
  induction template using scan_induction h with
  | nil => rfl
  | token c rest tail htail hscan ih => rw [hscan, lexemes_cons, ih, ← htail]

/-- Every token that is read is the first one of some text. -/
theorem exists_of_mem_scan (h : Lawful next) {token : Token} {template : Text}
    (hmem : token ∈ scan next template) : ∃ c rest, token = next c rest := by
  induction template using scan_induction h with
  | nil => exact absurd hmem List.not_mem_nil
  | token c rest tail _ hscan ih =>
      rw [hscan] at hmem
      rcases List.mem_cons.1 hmem with rfl | hlater
      · exact ⟨c, rest, rfl⟩
      · exact ih hlater

/-- No token that is read is empty. -/
theorem lexeme_ne_nil_of_mem_scan (h : Lawful next) {token : Token} {template : Text}
    (hmem : token ∈ scan next template) : token.lexeme ≠ [] := by
  obtain ⟨c, rest, rfl⟩ := exists_of_mem_scan h hmem
  exact h.ne_nil c rest

/-! ### The rule for references -/

variable (refs : References)

/-- A bracket begins a reference to the name that is found behind it. -/
theorem ofSigil_bracket (t : Text) :
    ofSigil refs ('<' :: t) = ((refs.name? t).map named).getD openBracket := by
  cases hname : refs.name? t with
  | none => simp [ofSigil, hname]
  | some name => simp [ofSigil, hname]

theorem ofSigil_slotDigit (index : Fin 9) (t : Text) :
    ofSigil refs (slotDigit index :: t) =
      if refs.isSet index then slot index else emptySlot index := by
  have hindex : slotIndex? (slotDigit index) = some index :=
    (slotIndex?_eq_some_iff _ _).2 rfl
  obtain ⟨hsigil, hwhole, hbefore, hafter, hbracket⟩ := slotDigit_ne index
  simp [ofSigil, hindex]

theorem ofSigil_other {c : Char} (h : c ∉ referenceChars) (t : Text) :
    ofSigil refs (c :: t) = loneSigil := by
  simp only [mem_referenceChars_iff, not_or, not_exists] at h
  obtain ⟨hsigil, hwhole, hbefore, hafter, hbracket, hdigit⟩ := h
  have hindex : slotIndex? c = none := by
    cases hfound : slotIndex? c with
    | none => rfl
    | some index => exact absurd ((slotIndex?_eq_some_iff c index).1 hfound).symm (hdigit index)
  simp [ofSigil, hindex]

/-- What a sigil begins covers the sigil and a beginning of what follows it. -/
theorem exists_lexeme_ofSigil (rest : Text) :
    ∃ front tail, (ofSigil refs rest).lexeme = '$' :: front ∧ rest = front ++ tail := by
  cases rest with
  | nil => exact ⟨[], [], rfl, rfl⟩
  | cons c t =>
      by_cases hc : c ∈ referenceChars
      · rcases (mem_referenceChars_iff c).1 hc with rfl | rfl | rfl | rfl | rfl | ⟨index, rfl⟩
        · exact ⟨['$'], t, rfl, rfl⟩
        · exact ⟨['&'], t, rfl, rfl⟩
        · exact ⟨['\x60'], t, rfl, rfl⟩
        · exact ⟨['\x27'], t, rfl, rfl⟩
        · rw [ofSigil_bracket]
          cases hname : refs.name? t with
          | none => exact ⟨['<'], t, rfl, rfl⟩
          | some name =>
              obtain ⟨tail, rfl⟩ := refs.closed hname
              exact ⟨'<' :: (name ++ ['>']), tail, rfl, rfl⟩
        · rw [ofSigil_slotDigit]
          split
          · exact ⟨[slotDigit index], t, rfl, rfl⟩
          · exact ⟨[slotDigit index], t, rfl, rfl⟩
      · rw [ofSigil_other refs hc]
        exact ⟨[], c :: t, rfl, rfl⟩

theorem first_sigil (rest : Text) : first refs '$' rest = ofSigil refs rest := if_pos rfl

theorem first_of_ne {c : Char} (hc : c ≠ '$') (rest : Text) :
    first refs c rest = literal (c :: rest.takeWhile (· != '$')) := if_neg hc

theorem lawful_first : Lawful (first refs) where
  append c rest := by
    by_cases hc : c = '$'
    · obtain ⟨front, tail, hlexeme, hrest⟩ := exists_lexeme_ofSigil refs rest
      refine ⟨tail, ?_⟩
      rw [hc, first_sigil, hlexeme, hrest]
      rfl
    · rw [first_of_ne refs hc]
      exact ⟨rest.dropWhile (· != '$'), by simp [lexeme, List.takeWhile_append_dropWhile]⟩
  ne_nil c rest := by
    by_cases hc : c = '$'
    · obtain ⟨front, tail, hlexeme, -⟩ := exists_lexeme_ofSigil refs rest
      rw [hc, first_sigil, hlexeme]
      exact List.cons_ne_nil '$' front
    · rw [first_of_ne refs hc]
      exact List.cons_ne_nil c _

/-- Behind the token that a sigil begins, reading starts afresh. -/
theorem scan_of_ofSigil {rest tail : Text} {token : Token} (h : ofSigil refs rest = token)
    (htail : '$' :: rest = token.lexeme ++ tail) :
    scan (first refs) ('$' :: rest) = token :: scan (first refs) tail :=
  scan_of_next (lawful_first refs) ((first_sigil refs rest).trans h) htail

/-- Matches with the same slots set, in which references by name mean the same, read a
template alike. -/
theorem read_congr {m m' : Match}
    (hslots : ∀ index : Fin 9, (m.slot? (index + 1)).isSome = (m'.slot? (index + 1)).isSome)
    (hresolve : ∀ rest, m.table.resolve? rest = m'.table.resolve? rest) (template : Text) :
    read m template = read m' template := by
  have hrefs : m.references = m'.references := by
    ext rest : 2
    · exact hslots rest
    · show (m.table.resolve? rest).map Entry.name = (m'.table.resolve? rest).map Entry.name
      rw [hresolve]
  rw [read, read, hrefs]

@[simp] theorem read_nil (m : Match) : read m [] = [] := rfl

@[simp] theorem lexemes_read (m : Match) (template : Text) :
    lexemes (read m template) = template :=
  lexemes_scan (lawful_first m.references) template

end Token

end MatchTemplate
