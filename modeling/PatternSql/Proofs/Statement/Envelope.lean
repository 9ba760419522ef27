import PatternSql.Proofs.Statement.Derivation
import PatternSql.Proofs.Token.Shape

/-!
# The parts of a statement

The tokens of a statement fall into its keywords, its pattern and its bodies in exactly one way. A
body is the stretch of the text from its first token to its last, and read by itself it has the
same tokens. A semicolon at the end makes no difference.

Main results:

* `Clause.isSlice_ofTokens`: a body is cut from the text so that its tokens stay what they are.
* `statement_envelope`: which texts are statements, and what their parts are.
-/

namespace PatternSql

open Terminal Text Grammar

/-! ## Splits -/

/-- The parts of a statement that matches. -/
structure MatchSplit where
  /-- The word that it begins with. -/
  keyword : Token
  /-- The pattern. -/
  pattern : List Token
  /-- The word in front of the condition and the condition, if there is one. -/
  condition : Option (Token × List Token)
  /-- The word in front of the projection. -/
  returning : Token
  /-- The projection. -/
  projection : List Token
  /-- The semicolon, if there is one. -/
  semicolon : Option Token

/-- The parts of a statement that creates. -/
structure CreateSplit where
  /-- The word that it begins with. -/
  keyword : Token
  /-- The pattern. -/
  pattern : List Token
  /-- The semicolon, if there is one. -/
  semicolon : Option Token

/-- A row of tokens may be a body. -/
def IsBody (ts : List Token) : Prop :=
  ts ≠ [] ∧ ∀ t ∈ ts, t.terminal ∉ [whereWord, returnWord, semicolon]

namespace MatchSplit

/-- The tokens of all parts in order. -/
def tokens (s : MatchSplit) : List Token :=
  s.keyword :: (s.pattern ++ ((s.condition.map fun c => c.1 :: c.2).getD [] ++
    (s.returning :: (s.projection ++ s.semicolon.toList))))

/-- The bodies. -/
def bodies (s : MatchSplit) : List (List Token) :=
  (s.condition.map (·.2)).toList ++ [s.projection]

/-- Each part is what it should be. -/
structure Valid (s : MatchSplit) : Prop where
  keyword : s.keyword.terminal = matchWord
  pattern : Grammar.pattern.Derives s.pattern
  condition : ∀ c ∈ s.condition, c.1.terminal = whereWord ∧ IsBody c.2
  returning : s.returning.terminal = returnWord
  projection : IsBody s.projection
  semicolon : ∀ t ∈ s.semicolon, t.terminal = .semicolon

/-- The parts make up a text. -/
def Splits (s : MatchSplit) (text : String) : Prop :=
  s.Valid ∧ s.tokens = (scan text).tokens

end MatchSplit

namespace CreateSplit

/-- The tokens of all parts in order. -/
def tokens (s : CreateSplit) : List Token :=
  s.keyword :: (s.pattern ++ s.semicolon.toList)

/-- Each part is what it should be. -/
structure Valid (s : CreateSplit) : Prop where
  keyword : s.keyword.terminal = createWord
  pattern : Grammar.pattern.Derives s.pattern
  semicolon : ∀ t ∈ s.semicolon, t.terminal = .semicolon

/-- The parts make up a text. -/
def Splits (s : CreateSplit) (text : String) : Prop :=
  s.Valid ∧ s.tokens = (scan text).tokens

end CreateSplit

/-! ## Splits and derivations -/

/-- The parts that a derivation says. -/
def matchSplit : matchStatement.Derivation → MatchSplit
  | ((word, d), condition, returning, body, ending) =>
    ⟨word.1, pattern.tokens d, condition.map fun c => (c.1.1, bodyOf c.2), returning.1,
      bodyOf body, ending.map (·.1)⟩

/-- The parts that a derivation says. -/
def createSplit : createStatement.Derivation → CreateSplit
  | ((word, d), ending) => ⟨word.1, pattern.tokens d, ending.map (·.1)⟩

theorem mem_clauseToken {t : Token} (ht : t.terminal ≠ endOfInput)
    (h : t.terminal ∉ [whereWord, returnWord, semicolon]) :
    t.terminal ∈ [identifier, matchWord, createWord, string, number, boolean, null, parameter,
      operator, leftParen, rightParen, leftBracket, rightBracket, leftBrace, rightBrace, comma, dot,
      colon, minus, less, greater, bar] := by
  revert ht h
  cases t.terminal <;> decide

theorem isBody_bodyOf (d : clauseText.Derivation) : IsBody (bodyOf d) := by
  have hall (t : clauseToken.Derivation) :
      t.1.terminal ∉ [whereWord, returnWord, semicolon] := by
    obtain ⟨⟨x, text, start, stop⟩, ht⟩ := t
    cases x <;> revert ht <;> simp
  obtain ⟨t, ts⟩ := d
  refine ⟨List.cons_ne_nil _ _, fun u hu => ?_⟩
  rcases List.mem_cons.mp hu with rfl | hu
  · exact hall t
  · obtain ⟨v, -, rfl⟩ := List.mem_map.mp hu
    exact hall v

theorem exists_bodyOf {ts : List Token} (h : IsBody ts)
    (hend : ∀ t ∈ ts, t.terminal ≠ endOfInput) : ∃ d : clauseText.Derivation, bodyOf d = ts := by
  obtain ⟨hne, hall⟩ := h
  obtain ⟨t, ts, rfl⟩ := List.exists_cons_of_ne_nil hne
  have hmem : ∀ u ∈ t :: ts, u.terminal ∈ _ := fun u hu => mem_clauseToken (hend u hu) (hall u hu)
  refine ⟨(⟨t, hmem t List.mem_cons_self⟩,
    ts.attach.map fun u => ⟨u.1, hmem u.1 (List.mem_cons_of_mem _ u.2)⟩), ?_⟩
  simp [bodyOf]

theorem valid_matchSplit (d : matchStatement.Derivation) :
    (matchSplit d).Valid ∧ (matchSplit d).tokens = matchStatement.tokens d := by
  obtain ⟨⟨word, d⟩, condition, returning, body, ending⟩ := d
  refine ⟨⟨terminal_eq word, ⟨d, rfl⟩, ?_, terminal_eq returning, isBody_bodyOf body, ?_⟩, ?_⟩
  · intro c hc
    obtain ⟨c, -, rfl⟩ := Option.map_eq_some_iff.mp hc
    exact ⟨terminal_eq c.1, isBody_bodyOf c.2⟩
  · intro t ht
    obtain ⟨t, -, rfl⟩ := Option.map_eq_some_iff.mp ht
    exact terminal_eq t
  · cases condition <;> cases ending <;>
      simp [matchSplit, MatchSplit.tokens, bodyOf_eq_tokens, Ebnf.tokens]

theorem valid_createSplit (d : createStatement.Derivation) :
    (createSplit d).Valid ∧ (createSplit d).tokens = createStatement.tokens d := by
  obtain ⟨⟨word, d⟩, ending⟩ := d
  refine ⟨⟨terminal_eq word, ⟨d, rfl⟩, ?_⟩, ?_⟩
  · intro t ht
    obtain ⟨t, -, rfl⟩ := Option.map_eq_some_iff.mp ht
    exact terminal_eq t
  · cases ending <;> simp [createSplit, CreateSplit.tokens, Ebnf.tokens]

/-- Valid parts are those of a derivation of their tokens. -/
theorem MatchSplit.Valid.exists_derivation {s : MatchSplit} (h : s.Valid)
    (hend : ∀ t ∈ s.tokens, t.terminal ≠ endOfInput) :
    ∃ d : matchStatement.Derivation, matchSplit d = s := by
  obtain ⟨keyword, ts, condition, returning, projection, semicolon⟩ := s
  obtain ⟨hkeyword, ⟨d, rfl⟩, hcondition, hreturning, hprojection, hsemicolon⟩ := h
  simp only [MatchSplit.tokens, List.mem_cons, List.mem_append] at hend
  obtain ⟨body, rfl⟩ := exists_bodyOf hprojection fun t ht =>
    hend t (.inr (.inr (.inr (.inr (.inl ht)))))
  obtain ⟨filter, rfl⟩ : ∃ filter : (Ebnf.opt (Ebnf.seq (token .whereWord) clauseText)).Derivation,
      (filter.map fun c => (c.1.1, bodyOf c.2)) = condition := by
    cases condition with
    | none => exact ⟨none, rfl⟩
    | some c =>
      obtain ⟨word, ts⟩ := c
      obtain ⟨hword, hbody⟩ := hcondition _ rfl
      obtain ⟨body, rfl⟩ := exists_bodyOf hbody fun t ht =>
        hend t (.inr (.inr (.inl (List.mem_cons_of_mem _ ht))))
      exact ⟨some (⟨word, List.mem_singleton.mpr hword⟩, body), rfl⟩
  obtain ⟨ending, rfl⟩ : ∃ ending : (Ebnf.opt (token .semicolon)).Derivation,
      ending.map (·.1) = semicolon := by
    cases semicolon with
    | none => exact ⟨none, rfl⟩
    | some t => exact ⟨some ⟨t, List.mem_singleton.mpr (hsemicolon t rfl)⟩, rfl⟩
  exact ⟨((⟨keyword, List.mem_singleton.mpr hkeyword⟩, d), filter,
    ⟨returning, List.mem_singleton.mpr hreturning⟩, body, ending), rfl⟩

theorem CreateSplit.Valid.exists_derivation {s : CreateSplit} (h : s.Valid) :
    ∃ d : createStatement.Derivation, createSplit d = s := by
  obtain ⟨keyword, ts, semicolon⟩ := s
  obtain ⟨hkeyword, ⟨d, rfl⟩, hsemicolon⟩ := h
  cases semicolon with
  | none => exact ⟨((⟨keyword, List.mem_singleton.mpr hkeyword⟩, d), none), rfl⟩
  | some t =>
    exact ⟨((⟨keyword, List.mem_singleton.mpr hkeyword⟩, d),
      some ⟨t, List.mem_singleton.mpr (hsemicolon t rfl)⟩), rfl⟩

/-! ## Bodies as stretches of the text -/

/-- A clause is the stretch of a text from the first of some tokens to the last, and by itself it
    has these tokens. -/
structure Clause.IsSlice (text : String) (ts : List Token) (c : Clause) : Prop where
  /-- It begins where the first token begins and ends where the last one ends. -/
  bounds : ∃ first last, ts.head? = some first ∧ ts.getLast? = some last ∧
    c.position = first.start.offset ∧
    c.text.toList = (text.toList.take last.stop).drop first.start.offset
  /-- Its tokens are the same, except for where they stand. -/
  content : (scan c.text).tokens.map Token.content = ts.map Token.content
  /-- It is tokens from end to end. -/
  finished : ∃ p, (scan c.text).stop = .finished p

/-- Tokens that follow each other in a text stand in a row of its pieces. -/
theorem exists_stretch {text : String} {p : Cursor} (h : (scan text).stop = .finished p)
    {as ts bs : List Token} (htokens : (scan text).tokens = as ++ (ts ++ bs)) (hts : ts ≠ []) :
    ∃ before qs after first last, text.toList = before ++ (charsOf qs ++ after) ∧ Cut qs [] ∧
      (tokensFrom .start qs).map Token.content = ts.map Token.content ∧
      ts.head? = some first ∧ first.start.offset = before.length ∧
      ts.getLast? = some last ∧ last.stop = before.length + (charsOf qs).length := by
  obtain ⟨ps, htext, hcut, hps, -⟩ := scan_finished h
  rw [hps] at htokens
  obtain ⟨before, qs, after, rfl, hqs, hfirst, hlast⟩ := tokensFrom_eq_middle htokens hts
  have hoffset : (Cursor.start.advance (charsOf before)).offset = (charsOf before).length := by
    rw [Cursor.advance_offset]
    exact Nat.zero_add _
  refine ⟨charsOf before, qs, charsOf after, ts.head hts, ts.getLast hts, ?_, ?_, ?_,
    List.head?_eq_some_head hts, ?_, List.getLast?_eq_some_getLast hts, ?_⟩
  · rw [htext, charsOf_append, charsOf_append]
  · have hmiddle : Cut qs ([] ++ charsOf after) := by
      simpa using (cut_append_iff.mp (cut_append_iff.mp hcut).2).1
    exact hmiddle.left
  · rw [← hqs]
    exact tokensFrom_content _ _ _
  · rw [hfirst _ (List.head?_eq_some_head hts), hoffset]
  · rw [hlast _ (List.getLast?_eq_some_getLast hts), hoffset]

theorem ofTokens_eq {text : String} {ts : List Token} {before body after : List Char}
    {first last : Token} (htext : text.toList = before ++ (body ++ after))
    (hfirst : ts.head? = some first) (hstart : first.start.offset = before.length)
    (hlast : ts.getLast? = some last) (hstop : last.stop = before.length + body.length) :
    Clause.ofTokens text ts = ⟨String.ofList body, before.length⟩ := by
  have hlen : before.length + body.length - before.length = body.length := by omega
  simp only [Clause.ofTokens, hfirst, hlast, Option.map_some, Option.getD_some, hstart, hstop,
    slice, htext, List.drop_left, hlen, List.take_left]

/-- A body is cut from the text so that its tokens stay what they are. -/
theorem Clause.isSlice_ofTokens {text : String} {p : Cursor} (h : (scan text).stop = .finished p)
    {as ts bs : List Token} (htokens : (scan text).tokens = as ++ (ts ++ bs)) (hts : ts ≠ []) :
    (Clause.ofTokens text ts).IsSlice text ts := by
  obtain ⟨before, qs, after, first, last, htext, hcut, hcontent, hfirst, hstart, hlast, hstop⟩ :=
    exists_stretch h htokens hts
  rw [ofTokens_eq htext hfirst hstart hlast hstop]
  have hscan := scan_of_cut hcut
  refine ⟨⟨first, last, hfirst, hlast, hstart.symm, ?_⟩, ?_, ?_⟩
  · rw [String.toList_ofList, htext, hstart, hstop, ← List.append_assoc, ← List.length_append,
      List.take_left, List.drop_left]
  · rw [hscan]
    exact hcontent
  · rw [hscan]
    exact ⟨_, rfl⟩

/-- A body does not depend on what is added to the text. -/
theorem ofTokens_append {text : String} {p : Cursor} (h : (scan text).stop = .finished p)
    {as ts bs : List Token} (htokens : (scan text).tokens = as ++ (ts ++ bs)) (hts : ts ≠ [])
    (more : String) : Clause.ofTokens (text ++ more) ts = Clause.ofTokens text ts := by
  obtain ⟨before, qs, after, first, last, htext, -, -, hfirst, hstart, hlast, hstop⟩ :=
    exists_stretch h htokens hts
  have hmore : (text ++ more).toList = before ++ (charsOf qs ++ (after ++ more.toList)) := by
    rw [String.toList_append, htext]
    simp only [List.append_assoc]
  rw [ofTokens_eq htext hfirst hstart hlast hstop, ofTokens_eq hmore hfirst hstart hlast hstop]

/-- A semicolon behind a text is one more token. -/
theorem scan_append_semicolon {text : String} {p : Cursor} (h : (scan text).stop = .finished p) :
    scan (text ++ ";") =
      ⟨(scan text).tokens ++ [⟨semicolon, ";", p, p.offset + 1⟩], .finished (p.next ';')⟩ := by
  obtain ⟨ps, htext, hcut, htokens, hp⟩ := scan_finished h
  have hmark : Cut [(some semicolon, [';'])] [] := ⟨by decide +kernel, trivial⟩
  have hall : Cut (ps ++ [(some semicolon, [';'])]) [] := by
    refine cut_append_iff.mpr ⟨?_, hmark⟩
    refine hcut.extend ?_ (stops_cons.mpr (by decide))
    intro c hc
    obtain rfl : ';' = c := by simpa using hc
    decide
  have hscan := scan_of_cut hall
  have hchars : String.ofList (charsOf (ps ++ [(some semicolon, [';'])])) = text ++ ";" := by
    rw [charsOf_append, ← htext, charsOf_cons, charsOf_nil, String.ofList_append,
      String.ofList_toList]
    rfl
  rw [hchars, tokensFrom_append, ← htokens, charsOf_append, ← htext, Cursor.advance_append,
    ← hp] at hscan
  exact hscan

/-! ## The envelope -/

theorem MatchSplit.exists_context {s : MatchSplit} {ts : List Token} (h : ts ∈ s.bodies) :
    ∃ as bs, s.tokens = as ++ (ts ++ bs) := by
  obtain ⟨keyword, pattern, condition, returning, projection, ending⟩ := s
  simp only [bodies, List.mem_append, List.mem_singleton] at h
  rcases h with h | rfl
  · cases condition with
    | none => simp at h
    | some c =>
      obtain ⟨word, body⟩ := c
      obtain rfl : ts = body := by simpa using h
      refine ⟨keyword :: (pattern ++ [word]), returning :: (projection ++ ending.toList), ?_⟩
      simp [tokens]
  · refine ⟨keyword :: (pattern ++ ((condition.map fun c => c.1 :: c.2).getD [] ++ [returning])),
      ending.toList, ?_⟩
    simp [tokens]

theorem MatchSplit.Valid.ne_nil {s : MatchSplit} (h : s.Valid) {ts : List Token}
    (hts : ts ∈ s.bodies) : ts ≠ [] := by
  simp only [bodies, List.mem_append, List.mem_singleton] at hts
  rcases hts with hts | rfl
  · obtain ⟨c, hc, rfl⟩ : ∃ c, s.condition = some c ∧ c.2 = ts := by simpa using hts
    exact (h.condition c hc).2.1
  · exact h.projection.1

/-- Outside the pattern the words of clauses stand only where the clauses begin. -/
theorem MatchSplit.Valid.boundary {s : MatchSplit} (h : s.Valid) {t : Token} (ht : t ∈ s.tokens)
    (hword : t.terminal = whereWord ∨ t.terminal = returnWord) :
    t ∈ s.pattern ∨ t = s.returning ∨ ∃ c ∈ s.condition, t = c.1 := by
  have hbody {ts : List Token} (hts : IsBody ts) (hmem : t ∈ ts) : False := by
    have := hts.2 t hmem
    rcases hword with hword | hword <;> simp [hword] at this
  simp only [tokens, List.mem_cons, List.mem_append] at ht
  rcases ht with rfl | ht | ht | rfl | ht | ht
  · rcases hword with hword | hword <;> simp [h.keyword] at hword
  · exact .inl ht
  · cases hc : s.condition with
    | none => simp [hc] at ht
    | some c =>
      rw [hc, Option.map_some, Option.getD_some, List.mem_cons] at ht
      rcases ht with rfl | ht
      · exact .inr (.inr ⟨c, rfl, rfl⟩)
      · exact (hbody (h.condition c hc).2 ht).elim
  · exact .inr (.inl rfl)
  · exact (hbody h.projection ht).elim
  · have := h.semicolon t (by simpa using ht)
    rcases hword with hword | hword <;> simp [this] at hword

/-- The words of statements begin the statement or stand in the pattern or in a body. -/
theorem MatchSplit.Valid.ordinary {s : MatchSplit} (h : s.Valid) {t : Token} (ht : t ∈ s.tokens)
    (hword : t.terminal = matchWord ∨ t.terminal = createWord) :
    t = s.keyword ∨ t ∈ s.pattern ∨ ∃ ts ∈ s.bodies, t ∈ ts := by
  simp only [tokens, List.mem_cons, List.mem_append] at ht
  rcases ht with ht | ht | ht | rfl | ht | ht
  · exact .inl ht
  · exact .inr (.inl ht)
  · cases hc : s.condition with
    | none => simp [hc] at ht
    | some c =>
      rw [hc, Option.map_some, Option.getD_some, List.mem_cons] at ht
      rcases ht with rfl | ht
      · rcases hword with hword | hword <;> simp [(h.condition c hc).1] at hword
      · exact .inr (.inr ⟨c.2, by simp [bodies, hc], ht⟩)
  · rcases hword with hword | hword <;> simp [h.returning] at hword
  · exact .inr (.inr ⟨s.projection, by simp [bodies], ht⟩)
  · have := h.semicolon t (by simpa using ht)
    rcases hword with hword | hword <;> simp [this] at hword

/-- In a statement that creates, all words but the first stand in the pattern. -/
theorem CreateSplit.Valid.ordinary {s : CreateSplit} (h : s.Valid) {t : Token} (ht : t ∈ s.tokens)
    (hword : t.terminal.isName = true) : t = s.keyword ∨ t ∈ s.pattern := by
  simp only [tokens, List.mem_cons, List.mem_append] at ht
  rcases ht with ht | ht | ht
  · exact .inl ht
  · exact .inr ht
  · rw [h.semicolon t (by simpa using ht)] at hword
    exact absurd hword (by decide)

/-- The derivation of a text whose parts are given. -/
theorem MatchSplit.Splits.exists_derivation {s : MatchSplit} {text : String}
    (h : s.Splits text) :
    ∃ d : matchStatement.Derivation, matchSplit d = s ∧
      statement.tokens (.inl d) = (scan text).tokens := by
  obtain ⟨hvalid, htokens⟩ := h
  obtain ⟨d, rfl⟩ := hvalid.exists_derivation fun t ht =>
    (isGenuine_of_mem (htokens ▸ ht)).ne_endOfInput
  exact ⟨d, rfl, (valid_matchSplit d).2.symm.trans htokens⟩

theorem CreateSplit.Splits.exists_derivation {s : CreateSplit} {text : String}
    (h : s.Splits text) :
    ∃ d : createStatement.Derivation, createSplit d = s ∧
      statement.tokens (.inr d) = (scan text).tokens := by
  obtain ⟨hvalid, htokens⟩ := h
  obtain ⟨d, rfl⟩ := hvalid.exists_derivation
  exact ⟨d, rfl, (valid_createSplit d).2.symm.trans htokens⟩

/-- The parts of a text that is a statement, and what becomes of them. -/
structure Envelope (text : String) : Prop where
  /-- A statement that matches is one whose tokens fall into the parts of one. -/
  matching : (∃ p c b, readStatement text = .ok (.matching p c b)) ↔
    ∃ s : MatchSplit, s.Splits text
  /-- A statement that creates is one whose tokens fall into the parts of one. -/
  creating : (∃ p, readStatement text = .ok (.creating p)) ↔ ∃ s : CreateSplit, s.Splits text
  /-- There is one way to match. -/
  matchUnique : ∀ s s' : MatchSplit, s.Splits text → s'.Splits text → s = s'
  /-- There is one way to create. -/
  createUnique : ∀ s s' : CreateSplit, s.Splits text → s'.Splits text → s = s'
  /-- If the pattern to match is understood, so is the statement, with its bodies cut out. -/
  matched : ∀ s : MatchSplit, s.Splits text → ∀ d, pattern.tokens d = s.pattern →
    ∀ P, (patternSyntax d).meaning = .ok P → P = patternOf d ∧
      splitStatement text = .ok (.matching P (s.condition.map fun c => .ofTokens text c.2)
        (.ofTokens text s.projection))
  /-- If the pattern to create is understood, so is the statement. -/
  created : ∀ s : CreateSplit, s.Splits text → ∀ d, pattern.tokens d = s.pattern →
    ∀ P, (patternSyntax d).meaning = .ok P → P = patternOf d ∧
      splitStatement text = .ok (.creating P)
  /-- The bodies are stretches of the text, and by themselves they have the same tokens. -/
  slices : ∀ s : MatchSplit, s.Splits text → ∀ ts ∈ s.bodies,
    (Clause.ofTokens text ts).IsSlice text ts
  /-- Outside the pattern the words of clauses stand only where the clauses begin. -/
  boundary : ∀ s : MatchSplit, s.Splits text → ∀ t ∈ (scan text).tokens,
    t.terminal = whereWord ∨ t.terminal = returnWord →
      t ∈ s.pattern ∨ t = s.returning ∨ ∃ c ∈ s.condition, t = c.1
  /-- The words of statements delimit nothing but begin one: elsewhere they are ordinary tokens. -/
  ordinary : ∀ s : MatchSplit, s.Splits text → ∀ t ∈ (scan text).tokens,
    t.terminal = matchWord ∨ t.terminal = createWord →
      t = s.keyword ∨ t ∈ s.pattern ∨ ∃ ts ∈ s.bodies, t ∈ ts
  /-- A statement that creates has no words outside its pattern but the first. -/
  createOrdinary : ∀ s : CreateSplit, s.Splits text → ∀ t ∈ (scan text).tokens,
    t.terminal.isName = true → t = s.keyword ∨ t ∈ s.pattern
  /-- A semicolon that is added makes no difference. -/
  semicolon : ∀ st, readStatement text = .ok st →
    (∀ t ∈ (scan text).tokens.getLast?, t.terminal ≠ .semicolon) →
      readStatement (text ++ ";") = .ok st ∧
        splitStatement (text ++ ";") = splitStatement text

theorem matched_of_splits {text : String} {p : Cursor} (h : (scan text).stop = .finished p)
    {s : MatchSplit} (hs : s.Splits text) {d : pattern.Derivation}
    (hd : pattern.tokens d = s.pattern) {P : Pattern} (hP : (patternSyntax d).meaning = .ok P) :
    P = patternOf d ∧ splitStatement text = .ok (.matching P
      (s.condition.map fun c => .ofTokens text c.2) (.ofTokens text s.projection)) := by
  obtain ⟨e, rfl, he⟩ := hs.exists_derivation
  refine ⟨(patternSyntax_meaning_iff.mp hP).2, ?_⟩
  rw [splitStatement_of_read (readStatement_eq_ok_iff.mpr ⟨⟨p, h⟩, _, he, rfl⟩)]
  obtain ⟨⟨word, d'⟩, condition, returning, body, ending⟩ := e
  obtain rfl : d = d' := pattern_unique hd
  rw [statementSyntax, StatementSyntax.meaning, hP]
  simp [matchSplit, bind, Except.bind, pure, Except.pure, Function.comp_def]

theorem created_of_splits {text : String} {p : Cursor} (h : (scan text).stop = .finished p)
    {s : CreateSplit} (hs : s.Splits text) {d : pattern.Derivation}
    (hd : pattern.tokens d = s.pattern) {P : Pattern} (hP : (patternSyntax d).meaning = .ok P) :
    P = patternOf d ∧ splitStatement text = .ok (.creating P) := by
  obtain ⟨e, rfl, he⟩ := hs.exists_derivation
  refine ⟨(patternSyntax_meaning_iff.mp hP).2, ?_⟩
  rw [splitStatement_of_read (readStatement_eq_ok_iff.mpr ⟨⟨p, h⟩, _, he, rfl⟩)]
  obtain ⟨⟨word, d'⟩, ending⟩ := e
  obtain rfl : d = d' := pattern_unique hd
  rw [statementSyntax, StatementSyntax.meaning, hP]
  rfl

/-- The semicolon of a statement can be put in or left out, and nothing else changes. -/
theorem exists_ending (d : statement.Derivation) :
    ∃ (front : List Token) (old : (Ebnf.opt (token .semicolon)).Derivation),
      statement.tokens d = front ++ (Ebnf.opt (token .semicolon)).tokens old ∧
      ∀ e, ∃ d', statement.tokens d' = front ++ (Ebnf.opt (token .semicolon)).tokens e ∧
        statementSyntax d' = statementSyntax d := by
  rcases d with ⟨front, condition, returning, body, old⟩ | ⟨front, old⟩
  · have htokens (e : (Ebnf.opt (token .semicolon)).Derivation) :
        statement.tokens (.inl (front, condition, returning, body, e)) =
          (Ebnf.seq (token .matchWord) pattern).tokens front ++
            ((Ebnf.opt (Ebnf.seq (token .whereWord) clauseText)).tokens condition ++
              ((token .returnWord).tokens returning ++ clauseText.tokens body)) ++
            (Ebnf.opt (token .semicolon)).tokens e := by
      simp only [List.append_assoc]
      rfl
    exact ⟨_, old, htokens old, fun e => ⟨_, htokens e, rfl⟩⟩
  · exact ⟨_, old, rfl, fun e => ⟨.inr (front, e), rfl, rfl⟩⟩

/-- A statement that has no semicolon is read in the same way with one. -/
theorem exists_derivation_semicolon (d : statement.Derivation) (t : Token)
    (ht : t.terminal = .semicolon)
    (hlast : ∀ u ∈ (statement.tokens d).getLast?, u.terminal ≠ .semicolon) :
    ∃ d', statement.tokens d' = statement.tokens d ++ [t] ∧
      statementSyntax d' = statementSyntax d := by
  obtain ⟨front, old, hold, hall⟩ := exists_ending d
  cases old with
  | some old =>
    refine absurd (terminal_eq old) (hlast old.1 ?_)
    rw [hold]
    exact List.getLast?_concat
  | none =>
    obtain ⟨d', hd', hsyn⟩ := hall (some ⟨t, List.mem_singleton.mpr ht⟩)
    refine ⟨d', ?_, hsyn⟩
    rw [hd', hold]
    simp [Ebnf.tokens]

/-- What a statement means does not depend on what is added to the text. -/
theorem meaning_append {text : String} {p : Cursor} (h : (scan text).stop = .finished p)
    {d : statement.Derivation} (hd : statement.tokens d = (scan text).tokens) (more : String) :
    (statementSyntax d).meaning (text ++ more) = (statementSyntax d).meaning text := by
  rcases d with d | d
  · obtain ⟨hvalid, htokens⟩ := valid_matchSplit d
    have hclause (ts : List Token) (hts : ts ∈ (matchSplit d).bodies) :
        Clause.ofTokens (text ++ more) ts = Clause.ofTokens text ts := by
      obtain ⟨as, bs, hall⟩ := MatchSplit.exists_context hts
      exact ofTokens_append h (hd ▸ htokens.symm.trans hall) (hvalid.ne_nil hts) more
    obtain ⟨⟨word, d⟩, condition, returning, body, ending⟩ := d
    have hbody := hclause (bodyOf body) (by simp [matchSplit, MatchSplit.bodies])
    simp only [statementSyntax, StatementSyntax.meaning, hbody]
    cases condition with
    | none => rfl
    | some c =>
      have hcondition := hclause (bodyOf c.2) (by simp [matchSplit, MatchSplit.bodies])
      simp only [Option.map_some, hcondition]
  · rfl

/-- A text of tokens is a statement exactly if it has the parts of one, and these are its bodies as
    they stand in the text and its pattern as it would be by itself. -/
theorem statement_envelope {text : String} {p : Cursor} (h : (scan text).stop = .finished p) :
    Envelope text where
  matching := by
    constructor
    · rintro ⟨syn, c, b, hread⟩
      obtain ⟨-, d, hd, hsyn⟩ := readStatement_eq_ok_iff.mp hread
      rcases d with d | d
      · exact ⟨matchSplit d, (valid_matchSplit d).1, (valid_matchSplit d).2.trans hd⟩
      · simp [statementSyntax] at hsyn
    · rintro ⟨s, hs⟩
      obtain ⟨d, -, hd⟩ := hs.exists_derivation
      exact ⟨_, _, _, readStatement_eq_ok_iff.mpr ⟨⟨p, h⟩, _, hd, rfl⟩⟩
  creating := by
    constructor
    · rintro ⟨syn, hread⟩
      obtain ⟨-, d, hd, hsyn⟩ := readStatement_eq_ok_iff.mp hread
      rcases d with d | d
      · simp [statementSyntax] at hsyn
      · exact ⟨createSplit d, (valid_createSplit d).1, (valid_createSplit d).2.trans hd⟩
    · rintro ⟨s, hs⟩
      obtain ⟨d, -, hd⟩ := hs.exists_derivation
      exact ⟨_, readStatement_eq_ok_iff.mpr ⟨⟨p, h⟩, _, hd, rfl⟩⟩
  matchUnique := by
    intro s s' hs hs'
    obtain ⟨d, rfl, hd⟩ := hs.exists_derivation
    obtain ⟨d', rfl, hd'⟩ := hs'.exists_derivation
    rw [Sum.inl.inj (statement_unique (hd.trans hd'.symm))]
  createUnique := by
    intro s s' hs hs'
    obtain ⟨d, rfl, hd⟩ := hs.exists_derivation
    obtain ⟨d', rfl, hd'⟩ := hs'.exists_derivation
    rw [Sum.inr.inj (statement_unique (hd.trans hd'.symm))]
  matched := fun _ hs _ hd _ hP => matched_of_splits h hs hd hP
  created := fun _ hs _ hd _ hP => created_of_splits h hs hd hP
  slices := by
    intro s hs ts hts
    obtain ⟨as, bs, hall⟩ := MatchSplit.exists_context hts
    exact Clause.isSlice_ofTokens h (hs.2.symm.trans hall) (hs.1.ne_nil hts)
  boundary := fun s hs t ht hword => hs.1.boundary (hs.2 ▸ ht) hword
  ordinary := fun s hs t ht hword => hs.1.ordinary (hs.2 ▸ ht) hword
  createOrdinary := fun s hs t ht hword => hs.1.ordinary (hs.2 ▸ ht) hword
  semicolon := by
    intro st hread hlast
    obtain ⟨-, d, hd, rfl⟩ := readStatement_eq_ok_iff.mp hread
    have hscan := scan_append_semicolon h
    obtain ⟨d', hd', hsyn⟩ := exists_derivation_semicolon d ⟨.semicolon, ";", p, p.offset + 1⟩ rfl
      (hd ▸ hlast)
    have hread' : readStatement (text ++ ";") = .ok (statementSyntax d) := by
      refine readStatement_eq_ok_iff.mpr ⟨⟨_, by rw [hscan]⟩, d', ?_, hsyn.symm⟩
      rw [hd', hscan, hd]
    refine ⟨hread', ?_⟩
    rw [splitStatement_of_read hread', splitStatement_of_read hread, meaning_append h hd]

/-- The words of clauses are names in a pattern, and stand in strings. -/
theorem statement_envelope_words :
    (scan "MATCH (where:return) WHERE a.x = 'RETURN' return b").stop = .finished ⟨50, 1, 51⟩ ∧
      splitStatement "MATCH (where:return) WHERE a.x = 'RETURN' return b;" =
        .ok (.matching ⟨⟨⟨"where", ["return"], none, some 6⟩, []⟩, []⟩
          (some ⟨"a.x = 'RETURN'", 27⟩) ⟨"b", 49⟩) := by
  have hstop : (scan "MATCH (where:return) WHERE a.x = 'RETURN' return b").stop =
      .finished ⟨50, 1, 51⟩ := by decide +kernel
  have hsplit : splitStatement "MATCH (where:return) WHERE a.x = 'RETURN' return b" =
      .ok (.matching ⟨⟨⟨"where", ["return"], none, some 6⟩, []⟩, []⟩
        (some ⟨"a.x = 'RETURN'", 27⟩) ⟨"b", 49⟩) := by decide +kernel
  obtain ⟨st, hread⟩ : ∃ st, readStatement
      "MATCH (where:return) WHERE a.x = 'RETURN' return b" = .ok st := by
    cases hread : readStatement "MATCH (where:return) WHERE a.x = 'RETURN' return b" with
    | ok st => exact ⟨st, rfl⟩
    | error e =>
      rw [splitStatement, hread] at hsplit
      cases hsplit
  have hlast : ∀ t ∈ (scan "MATCH (where:return) WHERE a.x = 'RETURN' return b").tokens.getLast?,
      t.terminal ≠ .semicolon := by decide +kernel
  exact ⟨hstop, ((statement_envelope hstop).semicolon st hread hlast).2.trans hsplit⟩

end PatternSql
