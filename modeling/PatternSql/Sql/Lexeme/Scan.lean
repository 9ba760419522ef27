import PatternSql.Sql.Lexeme
import PatternSql.Text.Digit
import PatternSql.Text.Word

/-!
# Scanning

The lexemes of a text. Digits of numerals are those of the seven-bit set; a word goes on up to a
blank or a mark. Characters with no use in expressions, and comments, are refused.

Main results:

* `quotedRun_length_lt`, `next?_length_lt`: reading a lexeme takes at least one character.
* `quotedRun_double`: a text with its quotes doubled is read back up to the closing quote.
-/

namespace PatternSql.Sql

open Text

/-! ## Characters -/

/-- The characters that end a word, apart from the blanks. -/
def isSpecial (c : Char) : Bool :=
  "()[]\x7b\x7d&^:,-.+%/\\<=>~\x60\"'#*;|?@!".toList.contains c

/-- Whether a character ends a word. -/
def endsWord (c : Char) : Bool :=
  isBlank c || isSpecial c

/-- Whether a character may begin a name and is no digit. -/
def beginsName (c : Char) : Bool :=
  isWord c && !isDigitLike c

/-- The word that a text begins with, and the rest. -/
def wordRun (cs : List Char) : List Char × List Char :=
  (cs.takeWhile (!endsWord ·), cs.dropWhile (!endsWord ·))

/-! ## Text in quotes -/

/-- The characters after a backslash before which it stays. -/
def lastingEscapes : List Char := ['%', '_']

/-- What a backslash and the character after it stand for in a string; none where the backslash is a
    character like any other. Before a character that needs no escaping it is dropped. -/
def escaped? (escapes : List (Char × Char)) (c : Char) : Option Char :=
  if escapes.isEmpty || lastingEscapes.contains c then none
  else some ((escapes.lookup c).getD c)

/-- The text up to a closing quote, where a doubled quote stands for one and the given escapes for
    their characters, and the text after it. -/
def quotedRun (quote : Char) (escapes : List (Char × Char)) :
    List Char → Option (List Char × List Char)
  | [] => none
  | [c] => if c = quote then some ([], []) else none
  | c :: d :: cs =>
    if c = quote then
      if d = quote then (quotedRun quote escapes cs).map fun (run, rest) => (quote :: run, rest)
      else some ([], d :: cs)
    else match (if c = '\\' then escaped? escapes d else none) with
      | some e => (quotedRun quote escapes cs).map fun (run, rest) => (e :: run, rest)
      | none => (quotedRun quote escapes (d :: cs)).map fun (run, rest) => (c :: run, rest)

/-! ## Numerals -/

/-- The rest of a numeral after its first digit: digits, one point, one exponent mark and, somewhere
    after that mark, one sign in front of a digit. -/
def numeralRun (pointed marked signed : Bool) : List Char → List Char × List Char
  | [] => ([], [])
  | c :: cs =>
    if c.isDigit then
      let (run, rest) := numeralRun pointed marked signed cs
      (c :: run, rest)
    else if c = '.' ∧ !pointed then
      let (run, rest) := numeralRun true marked signed cs
      (c :: run, rest)
    else if (c = 'e' ∨ c = 'E') ∧ !marked then
      let (run, rest) := numeralRun pointed true signed cs
      (c :: run, rest)
    else if (c = '-' ∨ c = '+') ∧ marked ∧ !signed ∧ (cs.head?.any Char.isDigit) then
      let (run, rest) := numeralRun pointed marked true cs
      (c :: run, rest)
    else ([], c :: cs)

/-- The base that a letter marks. -/
def Dialect.base? (d : Dialect) (c : Char) : Option Base :=
  if c.toLower = 'x' ∧ d.hexStrings then some .sixteen
  else if c.toLower = 'b' ∧ d.bitStrings then some .two
  else none

/-- Whether a character is a digit of a base. -/
def Base.hasDigit : Base → Char → Bool
  | two, c => c = '0' || c = '1'
  | sixteen, c => c.isDigit || ('a' ≤ c.toLower && c.toLower ≤ 'f')

/-- Whether a row of characters is digits of a base. -/
def Base.isNumeral (base : Base) (digits : List Char) : Bool :=
  !digits.isEmpty && digits.all base.hasDigit

/-- The lexeme that begins with a digit, and the rest. After a zero and the letter of a base it is a
    byte string, or a name that stands for itself; where names may begin with digits, letters that
    follow a numeral make it a word. -/
def numeral (d : Dialect) (c : Char) (cs : List Char) : Lexeme × List Char :=
  match (if c = '0' then cs.head?.bind d.base? else none) with
  | some base =>
    let (run, rest) := wordRun cs
    if base.isNumeral (run.drop 1) then (.bytes base (String.ofList (run.drop 1)), rest)
    else (.name (String.ofList (c :: run)), rest)
  | none =>
    let (run, rest) := numeralRun false false false cs
    if d.leadingDigits && rest.head?.any beginsName then
      let (more, rest) := wordRun rest
      (.word (String.ofList (c :: (run ++ more))), rest)
    else (.number (String.ofList (c :: run)), rest)

/-! ## Dollar signs -/

/-- The text before the first occurrence of another one, and the text after that. -/
def splitAt? (closing : List Char) : List Char → Option (List Char × List Char)
  | [] => none
  | c :: cs =>
    if closing.isPrefixOf (c :: cs) then some ([], (c :: cs).drop closing.length)
    else (splitAt? closing cs).map fun (run, rest) => (c :: run, rest)

/-- Whether the text between two dollar signs is a label that opens a string: it has no blanks, is
    not all digits, and something follows the second sign. -/
def isLabel (label rest : List Char) : Bool :=
  label.isEmpty || (!rest.isEmpty && !label.any isBlank && !label.all isDigitLike)

/-- The lexeme after a dollar sign, and the rest: the name of a parameter, or, after a label and
    another dollar sign, the string up to the label between two dollar signs. -/
def dollar? (cs : List Char) : Option (Lexeme × List Char) :=
  let label := cs.takeWhile (· ≠ '$')
  let rest := (cs.dropWhile (· ≠ '$')).drop 1
  if label.length < cs.length ∧ isLabel label rest then
    (splitAt? ('$' :: (label ++ ['$'])) rest).map fun (run, rest) =>
      (.string (String.ofList run), rest)
  else match wordRun cs with
    | ([], _) => none
    | (run, rest) => some (.parameter (String.ofList run), rest)

/-! ## Lexemes -/

/-- The mark that a text begins with. Two characters that would begin a comment are none. -/
def mark? : List Char → Option (Mark × List Char)
  | '-' :: '-' :: _ => none
  | '/' :: '*' :: _ => none
  | '<' :: '=' :: '>' :: cs => some (.spaceship, cs)
  | '<' :: '>' :: cs => some (.notEqual, cs)
  | '!' :: '=' :: cs => some (.notEqual, cs)
  | '<' :: '=' :: cs => some (.lessEqual, cs)
  | '>' :: '=' :: cs => some (.greaterEqual, cs)
  | '=' :: '=' :: cs => some (.equal, cs)
  | '|' :: '|' :: cs => some (.bars, cs)
  | '(' :: cs => some (.leftParen, cs)
  | ')' :: cs => some (.rightParen, cs)
  | '[' :: cs => some (.leftBracket, cs)
  | ']' :: cs => some (.rightBracket, cs)
  | ',' :: cs => some (.comma, cs)
  | '.' :: cs => some (.dot, cs)
  | '+' :: cs => some (.plus, cs)
  | '-' :: cs => some (.minus, cs)
  | '*' :: cs => some (.star, cs)
  | '/' :: cs => some (.slash, cs)
  | '%' :: cs => some (.percent, cs)
  | '=' :: cs => some (.equal, cs)
  | '<' :: cs => some (.less, cs)
  | '>' :: cs => some (.greater, cs)
  | '|' :: cs => some (.bar, cs)
  | '^' :: cs => some (.caret, cs)
  | '~' :: cs => some (.tilde, cs)
  | _ => none

/-- The byte string that a text begins with, if it is marked by a letter in front of its quote, and
    the rest. -/
def byteString? (base : Base) (cs : List Char) : Option (Lexeme × List Char) :=
  (quotedRun '\'' [] cs).bind fun (run, rest) =>
    if base.isNumeral run then some (.bytes base (String.ofList run), rest) else none

/-- The word that a text begins with, or what stands in quotes after its first letter, and the
    rest. -/
def word? (d : Dialect) (c : Char) (cs : List Char) : Option (Lexeme × List Char) :=
  match d.base? c, cs with
  | some base, '\'' :: cs => byteString? base cs
  | _, _ =>
    let (run, rest) := wordRun cs
    some (.word (String.ofList (c :: run)), rest)

/-- The lexeme that a text begins with, and the rest. -/
def next? (d : Dialect) : List Char → Option (Lexeme × List Char)
  | [] => none
  | c :: cs =>
    if c.isDigit then some (numeral d c cs)
    else match d.nameQuotes.lookup c with
      | some closing =>
        (quotedRun closing [] cs).map fun (run, rest) => (.name (String.ofList run), rest)
      | none =>
        if d.stringQuotes.contains c then
          (quotedRun c d.escapes cs).map fun (run, rest) => (.string (String.ofList run), rest)
        else if c = '$' ∧ d.dollarParameters then dollar? cs
        else if endsWord c then (mark? (c :: cs)).map fun (m, rest) => (.mark m, rest)
        else word? d c cs

/-! ## What is read is taken from the text -/

theorem numeralRun_append (pointed marked signed : Bool) (cs : List Char) :
    (numeralRun pointed marked signed cs).1 ++ (numeralRun pointed marked signed cs).2 = cs := by
  fun_induction numeralRun pointed marked signed cs <;> simp_all

theorem quotedRun_length_lt {quote : Char} {escapes : List (Char × Char)} {cs run rest : List Char}
    (h : quotedRun quote escapes cs = some (run, rest)) : rest.length < cs.length := by
  fun_induction quotedRun quote escapes cs generalizing run rest with
  | case1 => simp at h
  | case2 => simp_all
  | case3 => simp_all
  | case4 cs ih =>
    obtain ⟨⟨r, s⟩, hr, hs⟩ := Option.map_eq_some_iff.1 h
    have := ih hr
    simp_all only [Prod.mk.injEq, List.length_cons]
    omega
  | case5 => simp_all
  | case6 =>
    rename_i ih
    obtain ⟨⟨r, s⟩, hr, hs⟩ := Option.map_eq_some_iff.1 h
    have := ih hr
    simp_all only [Prod.mk.injEq, List.length_cons]
    omega
  | case7 =>
    rename_i ih
    obtain ⟨⟨r, s⟩, hr, hs⟩ := Option.map_eq_some_iff.1 h
    have := ih hr
    simp_all only [Prod.mk.injEq, List.length_cons]
    omega

theorem wordRun_length_le (cs : List Char) : (wordRun cs).2.length ≤ cs.length :=
  (List.dropWhile_suffix (!endsWord ·)).length_le

theorem numeral_length_le (d : Dialect) (c : Char) (cs : List Char) :
    (numeral d c cs).2.length ≤ cs.length := by
  have hrun := congrArg List.length (numeralRun_append false false false cs)
  rw [List.length_append] at hrun
  unfold numeral
  split
  · dsimp only
    split <;> exact wordRun_length_le cs
  · dsimp only
    split
    · exact Nat.le_trans (wordRun_length_le _) (by omega)
    · dsimp only
      omega

theorem splitAt?_length_le {closing cs run rest : List Char}
    (h : splitAt? closing cs = some (run, rest)) : rest.length ≤ cs.length := by
  induction cs generalizing run rest with
  | nil => simp [splitAt?] at h
  | cons c cs ih =>
    simp only [splitAt?] at h
    split at h
    · simp only [Option.some.injEq, Prod.mk.injEq] at h
      rw [← h.2, List.length_drop]
      omega
    · obtain ⟨⟨r, s⟩, hr, hs⟩ := Option.map_eq_some_iff.1 h
      have := ih hr
      simp_all only [Prod.mk.injEq, List.length_cons]
      omega

theorem dollar?_length_le {cs rest : List Char} {l : Lexeme} (h : dollar? cs = some (l, rest)) :
    rest.length ≤ cs.length := by
  unfold dollar? at h
  dsimp only at h
  split at h
  · obtain ⟨⟨r, s⟩, hr, hs⟩ := Option.map_eq_some_iff.1 h
    have h₁ := splitAt?_length_le hr
    have h₂ := (List.dropWhile_suffix (l := cs) (· ≠ '$')).length_le
    simp only [Prod.mk.injEq] at hs
    rw [List.length_drop] at h₁
    rw [← hs.2]
    omega
  · split at h
    · cases h
    · rename_i hr
      simp only [Option.some.injEq, Prod.mk.injEq] at h
      have := wordRun_length_le cs
      rw [hr] at this
      rw [← h.2]
      exact this

theorem mark?_length_lt {cs rest : List Char} {m : Mark} (h : mark? cs = some (m, rest)) :
    rest.length < cs.length := by
  unfold mark? at h
  split at h <;> simp only [Option.some.injEq, Prod.mk.injEq, reduceCtorEq] at h <;>
    obtain ⟨_, rfl⟩ := h <;> simp only [List.length_cons] <;> omega

theorem word?_length_le {d : Dialect} {c : Char} {cs rest : List Char} {l : Lexeme}
    (h : word? d c cs = some (l, rest)) : rest.length ≤ cs.length := by
  unfold word? at h
  split at h
  · obtain ⟨⟨r, s⟩, hr, hs⟩ := Option.bind_eq_some_iff.1 h
    have := quotedRun_length_lt hr
    dsimp only at hs
    split at hs
    · simp only [Option.some.injEq, Prod.mk.injEq] at hs
      rw [List.length_cons, ← hs.2]
      omega
    · cases hs
  · simp only [Option.some.injEq, Prod.mk.injEq] at h
    rw [← h.2]
    exact wordRun_length_le _

/-- Reading a lexeme takes at least one character. -/
theorem next?_length_lt {d : Dialect} {cs rest : List Char} {l : Lexeme}
    (h : next? d cs = some (l, rest)) : rest.length < cs.length := by
  cases cs with
  | nil => simp [next?] at h
  | cons c cs =>
    suffices rest.length ≤ cs.length by rw [List.length_cons]; omega
    simp only [next?] at h
    split at h
    · have := numeral_length_le d c cs
      simp only [Option.some.injEq] at h
      rwa [h] at this
    · split at h
      · obtain ⟨⟨r, s⟩, hr, hs⟩ := Option.map_eq_some_iff.1 h
        have := quotedRun_length_lt hr
        simp_all only [Prod.mk.injEq]
        omega
      · split at h
        · obtain ⟨⟨r, s⟩, hr, hs⟩ := Option.map_eq_some_iff.1 h
          have := quotedRun_length_lt hr
          simp_all only [Prod.mk.injEq]
          omega
        · split at h
          · exact dollar?_length_le h
          · split at h
            · obtain ⟨⟨r, s⟩, hr, hs⟩ := Option.map_eq_some_iff.1 h
              have := mark?_length_lt hr
              simp only [Prod.mk.injEq] at hs
              rw [List.length_cons, hs.2] at this
              omega
            · exact word?_length_le h

/-! ## The whole text -/

/-- The lexemes of a text, unless something in it begins none. -/
def lexemes? (d : Dialect) : List Char → Option (List Lexeme)
  | [] => some []
  | c :: cs =>
    if isBlank c then lexemes? d cs
    else match _h : next? d (c :: cs) with
      | some (l, rest) => (lexemes? d rest).map (l :: ·)
      | none => none
termination_by cs => cs.length
decreasing_by
  · simp
  · exact next?_length_lt _h

/-! ## Lemmas -/

/-- A text with its quotes doubled is read back up to the closing quote. -/
theorem quotedRun_double {quote : Char} (cs rest : List Char) (h : rest.head? ≠ some quote) :
    quotedRun quote [] (double quote cs ++ quote :: rest) = some (cs, rest) := by
  have hend : quotedRun quote [] (quote :: rest) = some ([], rest) := by
    cases rest with
    | nil => simp [quotedRun]
    | cons c rest =>
      have : c ≠ quote := by simpa using h
      simp [quotedRun, this]
  induction cs with
  | nil => exact hend
  | cons c cs ih =>
    by_cases hc : c = quote
    · subst hc
      simp [double, quotedRun] at ih ⊢
      exact ih
    · obtain ⟨d, ds, hd⟩ : ∃ d ds, double quote cs ++ quote :: rest = d :: ds := by
        cases hd : double quote cs ++ quote :: rest with
        | nil => simp at hd
        | cons d ds => exact ⟨d, ds, rfl⟩
      have : double quote (c :: cs) = c :: double quote cs := by simp [double, hc]
      rw [this, List.cons_append, hd]
      rw [hd] at ih
      simp [quotedRun, hc, escaped?, ih]

end PatternSql.Sql
