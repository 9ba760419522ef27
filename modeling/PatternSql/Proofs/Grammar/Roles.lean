import Mathlib.Tactic.Common
import PatternSql.Statement.Reading

/-!
# What states report

A terminal that does not fit is reported by the first role of what came last that it contradicts,
and a role that admits it is passed over, even the widest. Where a state has one way to go on, all
roles admit what fits and some role refuses what does not, so nothing that fits is missing from a
report. Behind a whole pattern, and in a body, the widest role admits what may follow other patterns
and other bodies: in place of these a report goes by a narrower role, and what fits may be missing
from it.

Main results:

* `Reader.RolesFit.complete`: where the roles fit, a report is complete.
* `PatternState.complete_or_omits`, `StatementState.complete_or_omits`: a report is complete, or it
  is one of those that omit something.
* `PatternState.Omits.omitsComma`, `StatementState.Omits.omitsComma`: what these reports are, and
  that a comma is missing from them.
-/

namespace PatternSql

open Terminal

/-! ## What fits in a state -/

namespace Reader

variable {σ α : Type} {reader : Reader σ α} {s : σ} {x y : Terminal}

/-- A terminal fits in a state: a token of it does, or it stands for the end, and there is a
    result. -/
def Fits (reader : Reader σ α) (s : σ) (x : Terminal) : Prop :=
  (x = endOfInput ∧ (reader.result s).isSome = true) ∨
    ∃ t : Token, t.terminal = x ∧ (reader.step s t).isSome = true

/-- Nothing that fits in a state is missing from what is reported in place of a terminal. -/
def Complete (reader : Reader σ α) (s : σ) (x : Terminal) : Prop :=
  ∀ y, reader.Fits s y → y ∈ expected (reader.roles s) x

/-- A terminal that all roles admit is expected in place of one that some role does not. -/
theorem mem_expected {roles : List (List Terminal)} (hy : ∀ role ∈ roles, y ∈ role)
    (hx : ∃ role ∈ roles, x ∉ role) : y ∈ expected roles x := by
  have hfound : (roles.find? fun role => !role.contains x).isSome = true := by
    simpa [List.find?_isSome] using hx
  obtain ⟨role, hrole⟩ := Option.isSome_iff_exists.mp hfound
  rw [expected, hrole, Option.getD_some]
  exact hy role (List.mem_of_find?_eq_some hrole)

/-- All roles admit the tokens that fit, and some role refuses each that does not. -/
def RolesFit {β : Type} (step : Token → Option β) (roles : List (List Terminal)) : Prop :=
  ∀ t, ((step t).isSome = true → ∀ role ∈ roles, t.terminal ∈ role) ∧
    (step t = none → ∃ role ∈ roles, t.terminal ∉ role)

/-- The roles of a part are those of the whole in which it is read. -/
theorem RolesFit.lift {β γ : Type} {step : Token → Option β} {step' : Token → Option γ}
    {roles : List (List Terminal)} (h : RolesFit step roles)
    (hstep : ∀ t, (step' t).isSome = (step t).isSome) : RolesFit step' roles := by
  intro t
  rw [← Option.isSome_eq_false_iff.trans Option.isNone_iff_eq_none, hstep t,
    Option.isSome_eq_false_iff.trans Option.isNone_iff_eq_none]
  exact h t

/-- A report is complete where the roles fit, and the text may not end. -/
theorem RolesFit.complete (h : RolesFit (reader.step s) (reader.roles s))
    (hresult : reader.result s = none) (hx : ¬reader.Fits s x) : reader.Complete s x := by
  rintro y (⟨-, hend⟩ | ⟨t, rfl, ht⟩)
  · rw [hresult] at hend
    exact nomatch hend
  · refine mem_expected ((h t).1 ht) ((h ⟨x, "", .start, 0⟩).2 ?_)
    exact Option.not_isSome_iff_eq_none.mp fun hstep => hx (.inr ⟨_, rfl, hstep⟩)

end Reader

open Reader

/-! ## Roles by places -/

theorem MapState.rolesFit (s : MapState) : RolesFit (MapState.step · s) s.roles := by
  rintro ⟨x, text, start, stop⟩
  cases s with
  | value es named => cases named <;> cases x <;> simp [step, roles, afterName]
  | _ => cases x <;> simp [step, roles, afterName, names, values, isName, isLiteral]

theorem NodeState.rolesFit (n : NodeSyntax) (s : NodeState) :
    RolesFit (NodeState.step n · s) s.roles := by
  cases s with
  | map m =>
    refine m.rolesFit.lift fun t => ?_
    cases h : m.step t with
    | none => simp [step, h]
    | some move => cases move <;> simp [step, h]
  | _ =>
    rintro ⟨x, text, start, stop⟩
    cases x <;> simp [step, stepPart, roles, afterName, afterVariable, afterMap, names, isName]

theorem DetailState.rolesFit (d : DetailSyntax) (s : DetailState) :
    RolesFit (DetailState.step d · s) s.roles := by
  cases s with
  | map m =>
    refine m.rolesFit.lift fun t => ?_
    cases h : m.step t with
    | none => simp [step, h]
    | some move => cases move <;> simp [step, h]
  | _ =>
    rintro ⟨x, text, start, stop⟩
    cases x <;> simp [step, stepPart, stepType, roles, afterName, afterVariable, afterMap, names,
      isName]

theorem EdgeState.rolesFit (e : EdgeSyntax) (s : EdgeState) :
    RolesFit (EdgeState.step e · s) s.roles := by
  cases s with
  | detail d s =>
    refine (s.rolesFit d).lift fun t => ?_
    cases h : s.step d t with
    | none => simp [step, h]
    | some move => cases move <;> simp [step, h]
  | _ =>
    rintro ⟨x, text, start, stop⟩
    cases x <;> simp [step, roles]

theorem PatternState.rolesFit {s : PatternState} (h : s.result = none)
    (following : List Terminal) : RolesFit s.step (s.roles following) := by
  cases s with
  | start l =>
    rintro ⟨x, text, start, stop⟩
    cases x <;> simp [step, roles]
  | node l n s =>
    refine (s.rolesFit n).lift fun t => ?_
    cases hs : s.step n t with
    | none => simp [step, hs]
    | some move => cases move <;> simp [step, hs]
  | closed p => exact nomatch h
  | edge p e s =>
    refine (s.rolesFit e).lift fun t => ?_
    cases hs : s.step e t with
    | none => simp [step, hs]
    | some move => cases move <;> simp [step, hs]

/-! ## States in which a report omits something -/

/-- In a state, in place of a terminal, a report omits something, and is what is given. -/
inductive PatternState.Omits : PatternState → Terminal → List Terminal → Prop
  /-- The pattern should be the whole text, and what follows other patterns does not follow it. -/
  | closed {p : PatternSyntax} {x : Terminal} (met : x ∈ [semicolon, whereWord, returnWord]) :
    Omits (.closed p) x []

/-- In a state, in place of a terminal, a report omits something, and is what is given. -/
inductive StatementState.Omits : StatementState → Terminal → List Terminal → Prop
  /-- The pattern to match is followed by what may follow a pattern to create. -/
  | matching {p : PatternSyntax} {x : Terminal} (met : x ∈ [semicolon, endOfInput]) :
    Omits (.matching (.closed p)) x [whereWord, returnWord]
  /-- The pattern to create is followed by what may follow a pattern to match. -/
  | creating {p : PatternSyntax} {x : Terminal} (met : x ∈ [whereWord, returnWord]) :
    Omits (.creating (.closed p)) x [semicolon, endOfInput]
  /-- The condition is followed by what may follow a projection. -/
  | filtering {p : PatternSyntax} {t : Token} {body : List Token} {x : Terminal}
      (met : x ∈ [semicolon, endOfInput]) : Omits (.filtering p (t :: body)) x [returnWord]
  /-- The projection is followed by what may follow a condition. -/
  | returning {p : PatternSyntax} {c : Option (List Token)} {t : Token} {body : List Token} :
    Omits (.returning p c (t :: body)) returnWord [semicolon, endOfInput]

/-- A comma that goes on with a pattern or with a body fits, and it is missing. -/
structure Reader.OmitsComma {σ α : Type} (reader : Reader σ α) (s : σ) (x : Terminal)
    (xs : List Terminal) : Prop where
  report : expected (reader.roles s) x = xs
  fits : reader.Fits s .comma
  missing : .comma ∉ xs

theorem PatternState.Omits.omitsComma {s : PatternState} {x : Terminal} {xs : List Terminal}
    (h : s.Omits x xs) : patternReader.OmitsComma s x xs := by
  cases h with
  | closed met =>
    refine ⟨?_, .inr ⟨⟨.comma, ",", .start, 1⟩, rfl, rfl⟩, by decide⟩
    simp only [List.mem_cons, List.not_mem_nil, or_false] at met
    rcases met with rfl | rfl | rfl <;> rfl

theorem StatementState.Omits.omitsComma {s : StatementState} {x : Terminal} {xs : List Terminal}
    (h : s.Omits x xs) : statementReader.OmitsComma s x xs := by
  have hcomma : statementReader.Fits s .comma := by
    refine .inr ⟨⟨.comma, ",", .start, 1⟩, rfl, ?_⟩
    cases h <;> rfl
  refine ⟨?_, hcomma, by cases h <;> decide⟩
  cases h with
  | returning => rfl
  | matching met | creating met | filtering met =>
    simp only [List.mem_cons, List.not_mem_nil, or_false] at met
    rcases met with rfl | rfl <;> rfl

/-- A report by the widest role is complete if the role admits all that fits. -/
theorem Reader.complete_of_widest {σ α : Type} {reader : Reader σ α} {s : σ} {x : Terminal}
    {widest : List Terminal} {roles : List (List Terminal)}
    (hroles : reader.roles s = widest :: roles) (hx : x ∉ widest)
    (hstep : ∀ t : Token, (reader.step s t).isSome = true → t.terminal ∈ widest)
    (hresult : (reader.result s).isSome = true → endOfInput ∈ widest) : reader.Complete s x := by
  have hexpected : expected (reader.roles s) x = widest := by
    simp [expected, hroles, hx]
  rw [Complete, hexpected]
  rintro y (⟨rfl, hend⟩ | ⟨t, rfl, ht⟩)
  · exact hresult hend
  · exact hstep t ht

/-- Where the widest role admits nothing but what fits and a few other terminals, a report is
    complete except in place of these. -/
theorem Reader.complete_or_met {σ α : Type} {reader : Reader σ α} {s : σ} {x : Terminal}
    {widest : List Terminal} {roles : List (List Terminal)} (met : List Terminal)
    (hroles : reader.roles s = widest :: roles)
    (hfits : ∀ y ∈ widest, y ∉ met → reader.Fits s y)
    (hstep : ∀ t : Token, (reader.step s t).isSome = true → t.terminal ∈ widest)
    (hresult : (reader.result s).isSome = true → endOfInput ∈ widest) (hx : ¬reader.Fits s x) :
    reader.Complete s x ∨ x ∈ met := by
  by_cases hmet : x ∈ met
  · exact .inr hmet
  · exact .inl (complete_of_widest hroles (fun hmem => hx (hfits x hmem hmet)) hstep hresult)

theorem PatternState.eq_closed {s : PatternState} (h : s.result ≠ none) : ∃ p, s = .closed p := by
  cases s with
  | closed p => exact ⟨p, rfl⟩
  | _ => exact absurd rfl h

theorem PatternState.complete_or_omits {s : PatternState} {x : Terminal}
    (hx : ¬patternReader.Fits s x) : patternReader.Complete s x ∨ ∃ xs, s.Omits x xs := by
  by_cases hresult : s.result = none
  · exact .inl ((s.rolesFit hresult []).complete hresult hx)
  · obtain ⟨p, rfl⟩ := eq_closed hresult
    refine (complete_or_met [semicolon, whereWord, returnWord] rfl (fun y hy hmet => ?_) ?_
      (fun _ => by decide) hx).imp_right fun hmet => ⟨_, .closed hmet⟩
    · cases y with
      | comma | minus | less => exact .inr ⟨⟨_, "", .start, 0⟩, rfl, rfl⟩
      | endOfInput => exact .inl ⟨rfl, rfl⟩
      | _ => simp [afterNode] at hy hmet
    · rintro ⟨y, text, start, stop⟩
      cases y <;> simp [patternReader, step, afterNode]

namespace StatementState

variable {x : Terminal}

theorem complete_or_omits_matching {s : PatternState} (hx : ¬statementReader.Fits (.matching s) x) :
    statementReader.Complete (.matching s) x ∨ ∃ xs, Omits (.matching s) x xs := by
  by_cases hresult : s.result = none
  · refine .inl (RolesFit.complete ((s.rolesFit hresult _).lift fun t => ?_) rfl hx)
    simp only [statementReader, step, hresult]
    cases s.step t <;> rfl
  · obtain ⟨p, rfl⟩ := PatternState.eq_closed hresult
    refine (complete_or_met [semicolon, endOfInput] rfl (fun y hy hmet => ?_) ?_
      (fun _ => by decide) hx).imp_right fun hmet => ⟨_, .matching hmet⟩
    · cases y with
      | comma | minus | less | whereWord | returnWord =>
        exact .inr ⟨⟨_, "", .start, 0⟩, rfl, rfl⟩
      | _ => simp [afterNode] at hy hmet
    · rintro ⟨y, text, start, stop⟩
      cases y <;> simp [statementReader, step, PatternState.step, PatternState.result, afterNode]

theorem complete_or_omits_creating {s : PatternState} (hx : ¬statementReader.Fits (.creating s) x) :
    statementReader.Complete (.creating s) x ∨ ∃ xs, Omits (.creating s) x xs := by
  by_cases hresult : s.result = none
  · refine .inl (RolesFit.complete ((s.rolesFit hresult _).lift fun t => ?_)
      (by simp [statementReader, result, hresult]) hx)
    simp only [statementReader, step, hresult]
    cases s.step t <;> rfl
  · obtain ⟨p, rfl⟩ := PatternState.eq_closed hresult
    refine (complete_or_met [whereWord, returnWord] rfl (fun y hy hmet => ?_) ?_
      (fun _ => by decide) hx).imp_right fun hmet => ⟨_, .creating hmet⟩
    · cases y with
      | comma | minus | less | semicolon => exact .inr ⟨⟨_, "", .start, 0⟩, rfl, rfl⟩
      | endOfInput => exact .inl ⟨rfl, rfl⟩
      | _ => simp [afterNode] at hy hmet
    · rintro ⟨y, text, start, stop⟩
      cases y <;> simp [statementReader, step, PatternState.step, PatternState.result, afterNode]

theorem complete_or_omits_filtering {p : PatternSyntax} {body : List Token}
    (hx : ¬statementReader.Fits (.filtering p body) x) :
    statementReader.Complete (.filtering p body) x ∨ ∃ xs, Omits (.filtering p body) x xs := by
  cases body with
  | nil =>
    refine .inl (RolesFit.complete ?_ rfl hx)
    rintro ⟨y, text, start, stop⟩
    cases y <;> simp [statementReader, step, roles, bodyTerminals]
  | cons t body =>
    refine (complete_or_met [semicolon, endOfInput] rfl (fun y hy hmet => ?_) ?_
      (fun _ => by decide) hx).imp_right fun hmet => ⟨_, .filtering hmet⟩
    · cases y with
      | semicolon | endOfInput => simp at hmet
      | whereWord => exact absurd hy (by decide)
      | _ => exact .inr ⟨⟨_, "", .start, 0⟩, rfl, rfl⟩
    · rintro ⟨y, text, start, stop⟩
      cases y <;> simp [statementReader, step, afterBody, bodyTerminals]

theorem complete_or_omits_returning {p : PatternSyntax} {c : Option (List Token)}
    {body : List Token} (hx : ¬statementReader.Fits (.returning p c body) x) :
    statementReader.Complete (.returning p c body) x ∨ ∃ xs, Omits (.returning p c body) x xs := by
  cases body with
  | nil =>
    refine .inl (RolesFit.complete ?_ rfl hx)
    rintro ⟨y, text, start, stop⟩
    cases y <;> simp [statementReader, step, roles, bodyTerminals]
  | cons t body =>
    refine (complete_or_met [returnWord] rfl (fun y hy hmet => ?_) ?_
      (fun _ => by decide) hx).imp_right fun hmet => ?_
    · cases y with
      | returnWord => simp at hmet
      | whereWord => exact absurd hy (by decide)
      | endOfInput => exact .inl ⟨rfl, rfl⟩
      | _ => exact .inr ⟨⟨_, "", .start, 0⟩, rfl, rfl⟩
    · rintro ⟨y, text, start, stop⟩
      cases y <;> simp [statementReader, step, afterBody, bodyTerminals]
    · obtain rfl := List.mem_singleton.mp hmet
      exact ⟨_, .returning⟩

theorem complete_or_omits {s : StatementState} (hx : ¬statementReader.Fits s x) :
    statementReader.Complete s x ∨ ∃ xs, s.Omits x xs := by
  cases s with
  | start =>
    refine .inl (RolesFit.complete ?_ rfl hx)
    rintro ⟨y, text, start, stop⟩
    cases y <;> simp [statementReader, step, roles]
  | matching s => exact complete_or_omits_matching hx
  | creating s => exact complete_or_omits_creating hx
  | filtering p body => exact complete_or_omits_filtering hx
  | returning p c body => exact complete_or_omits_returning hx
  | ended st =>
    refine .inl (complete_of_widest rfl (fun hmem => hx ?_)
      (fun t ht => absurd ht Bool.false_ne_true) fun _ => by decide)
    exact .inl ⟨List.mem_singleton.mp hmem, rfl⟩

end StatementState

end PatternSql
