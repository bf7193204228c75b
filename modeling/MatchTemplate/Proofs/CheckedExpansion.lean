import MatchTemplate.Checked.Expansion
import MatchTemplate.Template.Equations

/-!
# Expansion by byte offsets never faults

The loop that reads a template by byte offsets meets the tokens of the
template, one in each turn.  What it classifies is the token in front
(`classify_eq`), the width of that is the number of bytes of the token, and all
slices begin and end between two tokens (`step_eq`).  A whole run therefore
ends, without a fault, with the bytes of the expansion (`run_eq`), and its steps
tile the template (`tiles_stepsFrom`).
-/

namespace MatchTemplate.Checked

/-- The piece that is met where a token stands. -/
def Piece.ofToken (m : Match) : Token → Piece
  | .literal run => .literal run.byteLength
  | .sigil => .sigil
  | .whole => .whole
  | .before => .before
  | .after => .after
  | .slot index => .slot ((m.slot? (index + 1)).getD [])
  | .emptySlot _ => .copied 2
  | .named name => .named ((m.value? name).getD []) name.byteLength
  | .openBracket => .copied 2
  | .loneSigil => .loneSigil

/-- The steps over a list of tokens, the first of which stands at `position`. -/
def stepsFrom (m : Match) : Nat → List Token → List Step
  | _, [] => []
  | position, token :: rest =>
      let stop := position + token.lexeme.byteLength
      ⟨Piece.ofToken m token, ⟨position, stop⟩⟩ :: stepsFrom m stop rest

variable (m : Match) (source : Text)

/-! ### Classification -/

theorem slot?_eq (index : Nat) : slot? m (index + 1) = .ok (m.slot? (index + 1)) := by
  have hsub : sub (index + 1) 1 = .ok index := sub_eq_ok (by omega)
  simp [slot?, hsub, Match.slot?_succ]

/-- The group that a reference stands for is found with its value. -/
theorem namedGroup_eq (t : Text) :
    namedGroup m ('$' :: '<' :: t) =
      .ok ((m.table.resolve? t).map fun e => ((m.value? e.name).getD [], e.name.byteLength)) := by
  have hinner : sliceFrom ('$' :: '<' :: t) 2 = .ok t := sliceFrom_append ['$', '<'] t
  have hfound : (m.names.bind fun table => (table.longest? t).bind fun e =>
        e.value.map fun value => (value, e.name.byteLength)) =
      (m.table.longest? t).bind fun e => e.value.map fun value => (value, e.name.byteLength) := by
    unfold Match.table
    cases m.names with
    | none => rfl
    | some table => rfl
  have hresolve : m.table.resolve? t =
      (m.table.longest? t).filter fun e => e.value.isSome := rfl
  rw [namedGroup, hinner, ok_bind, pure_eq_ok, hfound, hresolve]
  cases hlongest : m.table.longest? t with
  | none => rfl
  | some e =>
      have hfind := ((NameTable.longest?_eq_some_iff _ t e).1 hlongest).2
      cases hset : e.value with
      | none => simp [Option.filter, hset]
      | some value =>
          have hvalue : m.value? e.name = some value := by
            simp [Match.value?, NameTable.value?, hfind, hset]
          simp [Option.filter, hset, hvalue]

theorem byteAt_zero_sigil (rest : Text) : byteAt ('$' :: rest) 0 = .ok '$'.toUInt8 := rfl

/-- In front of a character that is no sigil stands a run of text. -/
theorem classify_of_ne {c : Char} (hc : c ≠ '$') (rest : Text) :
    classify m (c :: rest) =
      .ok (.literal (Text.byteLength ((c :: rest).takeWhile (· != '$')))) := by
  obtain ⟨b, more, hencode, -, hlead⟩ := Text.exists_lead c
  have hbyte : byteAt (c :: rest) 0 = .ok b := by
    simp [byteAt, hencode]
  have hne : b ≠ '$'.toUInt8 := fun h => hc ((hlead '$' (by decide)).1.1 h)
  rw [classify, hbyte, ok_bind, if_pos hne, Text.findIdx_bytes (by decide), pure_eq_ok]

/-- In front of a sigil stands what the byte after it makes of it. -/
theorem classify_sigil {rest : Text} {second : UInt8} (h : rest.bytes[0]? = some second) :
    classify m ('$' :: rest) = classifySigil m ('$' :: rest) second := by
  have hsecond : (Text.bytes ('$' :: rest))[1]? = some second := h
  rw [classify, byteAt_zero_sigil, ok_bind, if_neg (fun h => h rfl), hsecond]

/-- The byte of a digit leads to the slot that the digit refers to. -/
theorem classifySigil_slotDigit (rest : Text) (index : Fin 9) :
    classifySigil m rest (Token.slotDigit index).toUInt8 =
      .ok (Piece.ofToken m
        (if (m.slot? (index + 1)).isSome then .slot index else .emptySlot index)) := by
  have hbyte : ∀ index : Fin 9,
      (Token.slotDigit index).toUInt8 ≠ '$'.toUInt8 ∧
      (Token.slotDigit index).toUInt8 ≠ '&'.toUInt8 ∧
      (Token.slotDigit index).toUInt8 ≠ '\x60'.toUInt8 ∧
      (Token.slotDigit index).toUInt8 ≠ '\x27'.toUInt8 ∧
      '1'.toUInt8 ≤ (Token.slotDigit index).toUInt8 ∧
      (Token.slotDigit index).toUInt8 ≤ '9'.toUInt8 ∧
      (Token.slotDigit index).toUInt8.toNat = '0'.toNat + (index + 1) := by
    decide
  obtain ⟨hsigil, hwhole, hbefore, hafter, hlow, hhigh, hcode⟩ := hbyte index
  have hnumber : sub (Token.slotDigit index).toUInt8.toNat '0'.toNat = .ok (index + 1) := by
    rw [hcode, sub_eq_ok (Nat.le_add_right _ _), Nat.add_sub_cancel_left]
  rw [classifySigil, if_neg hsigil, if_neg hwhole, if_neg hbefore, if_neg hafter,
    if_pos ⟨hlow, hhigh⟩, hnumber, ok_bind, slot?_eq, ok_bind]
  cases hslot : m.slot? (index + 1) with
  | none => rfl
  | some value => simp [Piece.ofToken, hslot]

/-- A bracket leads to the group that is found behind it. -/
theorem classifySigil_bracket (t : Text) :
    classifySigil m ('$' :: '<' :: t) '<'.toUInt8 =
      .ok (Piece.ofToken m (Token.ofSigil m.references ('<' :: t))) := by
  have hdigit : ¬ ('1'.toUInt8 ≤ '<'.toUInt8 ∧ '<'.toUInt8 ≤ '9'.toUInt8) := by decide
  rw [classifySigil, if_neg (by decide), if_neg (by decide), if_neg (by decide),
    if_neg (by decide), if_neg hdigit, if_pos rfl, namedGroup_eq, ok_bind, Token.ofSigil_bracket,
    Token.name?_references]
  cases m.table.resolve? t with
  | none => rfl
  | some e => rfl

/-- A byte that introduces nothing leaves the sigil on its own. -/
theorem classifySigil_other {d : Char} {second : UInt8} (rest : Text)
    (hd : d ∉ Token.referenceChars) (hcode : second.toNat < 128 → d.toNat = second.toNat)
    (hlead : ∀ c : Char, c.toNat < 128 → (second = c.toUInt8 ↔ d = c)) :
    classifySigil m rest second = .ok .loneSigil := by
  rw [Token.mem_referenceChars_iff] at hd
  simp only [not_or, not_exists] at hd
  obtain ⟨hsigil, hwhole, hbefore, hafter, hbracket, hdigit⟩ := hd
  have hnumber : ¬ ('1'.toUInt8 ≤ second ∧ second ≤ '9'.toUInt8) := by
    rintro ⟨hlow, hhigh⟩
    have hlow : 49 ≤ second.toNat := UInt8.le_iff_toNat_le.1 hlow
    have hhigh : second.toNat ≤ 57 := UInt8.le_iff_toNat_le.1 hhigh
    have hsame := hcode (by omega)
    obtain ⟨index, rfl, -⟩ := Token.exists_slotDigit (by omega) (by omega : d.toNat ≤ 57)
    exact hdigit index rfl
  rw [classifySigil, if_neg (mt (hlead '$' (by decide)).1 hsigil),
    if_neg (mt (hlead '&' (by decide)).1 hwhole), if_neg (mt (hlead '\x60' (by decide)).1 hbefore),
    if_neg (mt (hlead '\x27' (by decide)).1 hafter), if_neg hnumber,
    if_neg (mt (hlead '<' (by decide)).1 hbracket)]
  rfl

/-- What is classified in front of a template is its first token. -/
theorem classify_eq (c : Char) (rest : Text) :
    classify m (c :: rest) = .ok (Piece.ofToken m (Token.first m.references c rest)) := by
  by_cases hc : c = '$'
  · subst hc
    rw [Token.first_sigil]
    cases rest with
    | nil => rfl
    | cons d t =>
        obtain ⟨b, more, hencode, hcode, hlead⟩ := Text.exists_lead d
        have hsecond : (Text.bytes (d :: t))[0]? = some b := by
          simp [hencode]
        rw [classify_sigil m hsecond]
        by_cases hd : d ∈ Token.referenceChars
        · have hb : ∀ c : Char, c.toNat < 128 → d = c → b = c.toUInt8 :=
            fun c hc h => (hlead c hc).1.2 h
          rcases (Token.mem_referenceChars_iff d).1 hd with
            rfl | rfl | rfl | rfl | rfl | ⟨index, rfl⟩
          · rw [hb '$' (by decide) rfl]
            rfl
          · rw [hb '&' (by decide) rfl]
            rfl
          · rw [hb '\x60' (by decide) rfl]
            rfl
          · rw [hb '\x27' (by decide) rfl]
            rfl
          · rw [hb '<' (by decide) rfl, classifySigil_bracket]
          · have hsmall : (Token.slotDigit index).toNat < 128 := by
              rw [Token.toNat_slotDigit]
              omega
            rw [hb _ hsmall rfl, classifySigil_slotDigit, Token.ofSigil_slotDigit,
              Token.isSet_references]
        · rw [classifySigil_other m _ hd hcode fun c hc => (hlead c hc).1,
            Token.ofSigil_other _ hd]
          rfl
  · rw [classify_of_ne m hc, Token.first_of_ne _ hc]
    simp [Piece.ofToken, hc]

/-! ### One turn of the loop -/

theorem byteLength_slot (index : Fin 9) : Text.byteLength ['$', Token.slotDigit index] = 2 := by
  revert index
  decide

/-- Where the source cannot be cut in front of the match, the slice is a fault. -/
theorem before_eq : before m source = m.before source := by
  rw [before, toOption_slice, Text.slice?_zero]
  rfl

/-- That the end of a match has to be a word does not matter, as the source
ends before. -/
theorem after_eq (hsource : source.byteLength < wordCount) : after m source = m.after source := by
  have hend : min (addUpToLimit m.offset m.whole.byteLength) source.byteLength =
      min (m.offset + m.whole.byteLength) source.byteLength := by
    unfold addUpToLimit
    omega
  rw [after, sliceFrom, toOption_slice, Text.slice?_byteLength, hend]
  rfl

/-- What is put out for a piece is what its token stands for. -/
theorem emit_eq (hsource : source.byteLength < wordCount) (token : Token) (tail : Text) :
    emit m source (token.lexeme ++ tail) (Piece.ofToken m token) =
      .ok (token.value m source).bytes := by
  cases token with
  | literal run =>
      show (do return (← slice (run ++ tail) 0 run.byteLength).bytes) = _
      rw [slice_zero_append]
      rfl
  | emptySlot index =>
      have hwidth : (Token.emptySlot index).lexeme.byteLength = 2 := byteLength_slot index
      show (do return (← slice ((Token.emptySlot index).lexeme ++ tail) 0 2).bytes) = _
      rw [← hwidth, slice_zero_append]
      rfl
  | openBracket =>
      show (do return (← slice (Token.openBracket.lexeme ++ tail) 0
        Token.openBracket.lexeme.byteLength).bytes) = _
      rw [slice_zero_append]
      rfl
  | before =>
      show Except.ok (before m source).bytes = _
      rw [before_eq]
      rfl
  | after =>
      show Except.ok (after m source).bytes = _
      rw [after_eq m source hsource]
      rfl
  | _ => rfl

/-- A piece covers the bytes of its token. -/
theorem width_eq {token : Token} (hshort : token.lexeme.byteLength < wordCount) :
    (Piece.ofToken m token).width = .ok token.lexeme.byteLength := by
  cases token with
  | named name =>
      have hlexeme : (Token.named name).lexeme.byteLength = name.byteLength + 3 := by
        have hclose : Char.utf8Size '>' = 1 := rfl
        have hopen : Char.utf8Size '$' = 1 ∧ Char.utf8Size '<' = 1 := ⟨rfl, rfl⟩
        simp only [Token.lexeme, Text.byteLength_cons, Text.byteLength_append,
          Text.byteLength_nil, hclose, hopen]
        omega
      rw [hlexeme] at hshort ⊢
      exact add_eq_ok hshort
  | emptySlot index =>
      have hlexeme : (Token.emptySlot index).lexeme.byteLength = 2 := byteLength_slot index
      rw [hlexeme]
      rfl
  | slot index =>
      have hlexeme : (Token.slot index).lexeme.byteLength = 2 := byteLength_slot index
      rw [hlexeme]
      rfl
  | _ => rfl

/-- A turn in front of a token puts out what the token stands for, and goes on
behind it. -/
theorem step_eq (hsource : source.byteLength < wordCount) {c : Char} {rest tail : Text}
    (hcover : c :: rest = (Token.first m.references c rest).lexeme ++ tail)
    (hshort : Text.byteLength (c :: rest) < wordCount) (position : Nat) (output : Bytes)
    (steps : List Step) :
    Scan.step m source ⟨c :: rest, position, output, steps⟩ =
      .ok
        { rest := tail
          position := position + (Token.first m.references c rest).lexeme.byteLength
          output := output ++ ((Token.first m.references c rest).value m source).bytes
          steps := steps ++ [⟨Piece.ofToken m (Token.first m.references c rest),
            ⟨position, position + (Token.first m.references c rest).lexeme.byteLength⟩⟩] } := by
  have hclassify := classify_eq m c rest
  generalize Token.first m.references c rest = token at hcover hclassify ⊢
  have hwidth : (Piece.ofToken m token).width = .ok token.lexeme.byteLength := by
    apply width_eq
    rw [hcover, Text.byteLength_append] at hshort
    omega
  have hemit := emit_eq m source hsource token tail
  have hrest : sliceFrom (token.lexeme ++ tail) token.lexeme.byteLength = .ok tail :=
    sliceFrom_append token.lexeme tail
  rw [hcover] at hclassify ⊢
  simp only [Scan.step, hclassify, hemit, hwidth, hrest, ok_bind, pure_eq_ok]

/-! ### Whole runs -/

/-- The loop ends behind the last token.  It needs no more turns than there are
bytes, as every token has one at least. -/
theorem run_eq (hsource : source.byteLength < wordCount) {template : Text}
    (hshort : template.byteLength < wordCount) {fuel : Nat} (hfuel : template.byteLength ≤ fuel)
    (position : Nat) (output : Bytes) (steps : List Step) :
    Scan.run m source fuel ⟨template, position, output, steps⟩ =
      .ok
        { rest := []
          position := position + template.byteLength
          output := output ++ (m.expansion source template).bytes
          steps := steps ++ stepsFrom m position (Token.read m template) } := by
  induction template using Token.scan_induction (Token.lawful_first m.references)
    generalizing fuel position output steps with
  | nil =>
      cases fuel with
      | zero => simp [Scan.run, stepsFrom]
      | succ fuel => simp [Scan.run, stepsFrom]
  | token c rest tail hcover hscan ih =>
      have hstep := step_eq m source hsource hcover hshort position output steps
      have hread : Token.read m (c :: rest) =
          Token.first m.references c rest :: Token.read m tail := hscan
      have hnonempty := (Token.lawful_first m.references).ne_nil c rest
      generalize Token.first m.references c rest = token at hcover hstep hread hnonempty
      have hlength : Text.byteLength (c :: rest) =
          token.lexeme.byteLength + Text.byteLength tail := by
        rw [hcover, Text.byteLength_append]
      have hpos := Text.byteLength_pos hnonempty
      obtain ⟨fuel, rfl⟩ : ∃ k, fuel = k + 1 := ⟨fuel - 1, by omega⟩
      have hexpansion : m.expansion source (c :: rest) =
          token.value m source ++ m.expansion source tail := by
        rw [Match.expansion, hread]
        rfl
      have htail := ih (by omega) (by omega : Text.byteLength tail ≤ fuel)
        (position + token.lexeme.byteLength) (output ++ (token.value m source).bytes)
        (steps ++ [⟨Piece.ofToken m token, ⟨position, position + token.lexeme.byteLength⟩⟩])
      rw [Scan.run, if_neg (by simp), hstep, ok_bind, htail, hread, hexpansion, hlength]
      simp only [stepsFrom, Text.bytes_append, List.append_assoc, List.singleton_append,
        Nat.add_assoc]

/-- The steps over tokens that are not empty lead from the first byte to the
last without gaps. -/
theorem tiles_stepsFrom (tokens : List Token) (hnonempty : ∀ token ∈ tokens, token.lexeme ≠ [])
    (position : Nat) :
    Tiles position (position + (Token.lexemes tokens).byteLength)
      ((stepsFrom m position tokens).map Step.span) := by
  induction tokens generalizing position with
  | nil => rfl
  | cons token rest ih =>
      have hrest := ih (fun other h => hnonempty other (List.mem_cons_of_mem token h))
        (position + token.lexeme.byteLength)
      have hpos := Text.byteLength_pos (hnonempty token List.mem_cons_self)
      rw [Token.lexemes_cons, Text.byteLength_append, ← Nat.add_assoc]
      refine ⟨rfl, ?_, ?_, hrest⟩
      · show position < position + token.lexeme.byteLength
        omega
      · show position + token.lexeme.byteLength ≤ _
        omega

/-- A template that is expanded by offsets has the plain expansion. -/
theorem expand_eq {template : Text} (hsource : source.byteLength < wordCount)
    (htemplate : template.byteLength < wordCount) :
    expand m source template =
      .ok
        { rest := []
          position := template.byteLength
          output := (m.expansion source template).bytes
          steps := stepsFrom m 0 (Token.read m template) } := by
  have hrun := run_eq m source hsource htemplate (Nat.le_refl _) 0 [] []
  rw [Nat.zero_add, List.nil_append, List.nil_append] at hrun
  exact hrun

end MatchTemplate.Checked
