import PatternSql.Sql.Expr.Grouping
import PatternSql.Sql.Keyword

/-!
# Reading expressions

An expression is read by levels. An operand, with the signs and negations in front of it, is
followed by operators as long as they bind tightly enough, each with a right operand that binds more
tightly still; after an operator only those follow that bind no more tightly. An identity is
complete with its right operand: in some dialects a comparison may follow it that binds more tightly
than the identity does. A negation may stand wherever an operand may, and reaches as far as an
equality.

Where an operand is missing, nothing is read, and it depends on the place whether that is an error:
an operator needs its operands, while lists pass over empty entries. All the readers take the
lexemes that are left and say which are left after them. They are given a number of steps; none is
ever short of them, since every few steps take a lexeme.

Main results:

* `operator?_lexemes`: a comparison is read back from the mark that it is written as.
* `afterMark?_eq_some_iff`: what is taken stood in front of what is left.
-/

namespace PatternSql.Sql

open Text

namespace Expr

/-! ## Words and marks -/

/-- The operator that a word is. -/
def wordOperator? (d : Dialect) (word : String) : Option Operator :=
  match upper word with
  | "OR" => some .or
  | "AND" => some .and
  | "XOR" => if d = .mysql then some .xor else none
  | _ => none

/-- The operator that a mark is. -/
def markOperator? (d : Dialect) : Mark → Option Operator
  | .equal => some .equal
  | .notEqual => some .notEqual
  | .spaceship => some .sameAs
  | .less => some .less
  | .lessEqual => some .lessEqual
  | .greater => some .greater
  | .greaterEqual => some .greaterEqual
  | .bars => some (if d.barsJoin then .concat else .or)
  | .bar => some .bitOr
  | .caret => some (if d = .postgres then .power else .bitXor)
  | .plus => some .plus
  | .minus => some .minus
  | .percent => some .remainder
  | .star => some .times
  | .slash => some (.divide d.division)
  | _ => none

/-- The operator that lexemes begin with, and what follows it. -/
def operator? (d : Dialect) : List Lexeme → Option (Operator × List Lexeme)
  | .mark .less :: .mark .less :: ls => some (.shiftLeft, ls)
  | .mark .greater :: .mark .greater :: ls => some (.shiftRight, ls)
  | .mark m :: ls => (markOperator? d m).map fun op => (op, ls)
  | .word w :: ls => (wordOperator? d w).map fun op => (op, ls)
  | _ => none

/-- What an operand may be tested for. -/
inductive Test
  | member
  | between
  | like
  | missing
  deriving DecidableEq, Repr

/-- The test that a word begins. -/
def wordTest? (word : String) : Option Test :=
  match upper word with
  | "IN" => some .member
  | "BETWEEN" => some .between
  | "LIKE" => some .like
  | "ISNULL" => some .missing
  | _ => none

/-- The test that lexemes begin with, whether it is negated, and what follows its word. -/
def test? : List Lexeme → Option (Bool × Test × List Lexeme)
  | .word w :: ls =>
    if upper w == "NOT" then
      match ls with
      | .word v :: ls =>
        if upper v == "NULL" then some (true, .missing, ls)
        else (wordTest? v).map fun t => (true, t, ls)
      | _ => none
    else if upper w == "NOTNULL" then some (true, .missing, ls)
    else (wordTest? w).map fun t => (false, t, ls)
  | _ => none

/-- The lexemes after a mark, if they begin with it. -/
def afterMark? (m : Mark) : List Lexeme → Option (List Lexeme)
  | .mark m' :: ls => if m' = m then some ls else none
  | _ => none

/-- The strings that lexemes begin with, and what follows them. -/
def stringRun : List Lexeme → List String × List Lexeme
  | .string t :: ls =>
    let (ts, rest) := stringRun ls
    (t :: ts, rest)
  | ls => ([], ls)

/-- One string or several side by side. -/
def ofStrings (d : Dialect) (first : String) (more : List String) : Expr :=
  if more.isEmpty then .string first else .strings d.joinsPresent (first :: more)

/-- What follows the arguments of a call. A call over a window is no expression here. -/
def afterCall? (ls : List Lexeme) : Option (List Lexeme) :=
  match afterMark? .rightParen ls with
  | some rest => if (afterWord? "OVER" rest).isSome then none else some rest
  | none => none

/-- The functions of known meaning, which combine the values of many rows. A function of any other
    name is taken for one that the library of the language does not know: it has any number of
    arguments and is written as it is called. The library has forms of its own for many names; calls
    of these are not described here. -/
def aggregates : List String := ["AVG", "COUNT", "MAX", "MIN", "SUM"]

/-- Whether a function takes so many arguments; functions that are not known take any. -/
def takesArguments (function : String) (count : Nat) : Bool :=
  if function == "SUM" || function == "AVG" then count == 1
  else if function == "MIN" || function == "MAX" then 0 < count
  else true

/-- What is in parentheses: a list of its own, or one expression. -/
def ofGroup : List (Option Expr) → Expr
  | [some e] => .paren e
  | entries => .tuple entries.reduceOption

/-- A part of what an expression stands for. A name after the name of a column makes that the name
    of its table. -/
def withPart (e : Expr) (part : Name) : Expr :=
  match e with
  | .column qualifiers name => .column (qualifiers ++ [name]) part
  | e => .access e (.column [] part)

/-- All parts of what an expression stands for. -/
def withAllParts (e : Expr) : Expr :=
  match e with
  | .column qualifiers name => .star (qualifiers ++ [name])
  | e => .access e (.star [])

/-- The number of an element, counted from zero. -/
def countedFrom (first : Nat) : Expr → Expr
  | .number text =>
    if first ≠ 0 ∧ text.toList.all Char.isDigit then
      .ofInt ((text.toNat?.getD 0 : Nat) - (first : Int))
    else .number text
  | e => e

/-! ## Aliases -/

/-- The name that a lexeme is after the word for an alias. -/
def anyName? (l : Lexeme) : Option Name :=
  match l with
  | .word t => if isForbidden t then none else some (.bare t)
  | .name t => some (.quoted t)
  | .string t => some (.quoted t)
  | .number t => some (.bare t)
  | .bytes _ t => some (.bare t)
  | .parameter t => some (.parameter t)
  | .mark m => if 1 < m.text.length ∧ m ≠ .equal then some (.bare m.text) else none

/-- The name that a lexeme is after nothing but an expression. -/
def plainName? (d : Dialect) (l : Lexeme) : Option Name :=
  match l with
  | .word t => if isReserved t then none else some (.bare t)
  | .name t => some (.quoted t)
  | .string t => if d.stringAliases then some (.quoted t) else none
  | .parameter t => some (.parameter t)
  | _ => none

/-- The names up to a closing parenthesis, and what follows it. -/
def nameList? (name? : Lexeme → Option Name) : List Lexeme → Option (List Name × List Lexeme)
  | .mark .rightParen :: ls => some ([], ls)
  | .mark .comma :: ls => nameList? name? ls
  | l :: .mark .comma :: ls =>
    (name? l).bind fun n => (nameList? name? ls).map fun (ns, rest) => (n :: ns, rest)
  | l :: .mark .rightParen :: ls => (name? l).map fun n => ([n], ls)
  | _ => none

/-- An expression with the name or the names that follow it, if there are any, and the rest. -/
def withAlias (name? : Lexeme → Option Name) (e : Expr) :
    List Lexeme → Option (Expr × List Lexeme)
  | .mark .leftParen :: ls =>
    match nameList? name? ls with
    | some (n :: ns, rest) => some (.unpacked e (n :: ns), rest)
    | _ => none
  | l :: ls =>
    match name? l with
    | some n => some (.named e n, ls)
    | none => some (e, l :: ls)
  | [] => some (e, [])

/-! ## Openings -/

/-- What stands between the first word of a query and its items. -/
structure Opening where
  /-- Whether only distinct rows are asked for. -/
  unique : Bool
  /-- Whether the rows are to be turned into values of one kind. -/
  shaped : Bool
  deriving DecidableEq, Repr

/-- Whether the first of some lexemes is a name, since nothing or a point follows. -/
def beginsWithName : List Lexeme → Bool
  | _ :: .mark .dot :: _ => true
  | _ :: _ :: _ => false
  | _ => true

/-- The opening of a query, and the rest. All rows and the distinct ones at once are an error. -/
def opening? (ls : List Lexeme) : Option (Opening × List Lexeme) :=
  let (every, rest) := if beginsWithName ls then (false, ls) else passWord "ALL" ls
  let (unique, rest) := if beginsWithName ls then (false, ls) else passWord "DISTINCT" rest
  if every && unique then none
  else match afterWord? "AS" rest with
    | none => some (⟨unique, false⟩, rest)
    | some rest =>
      match afterWord? "VALUE" rest, afterWord? "STRUCT" rest with
      | some rest, _ => some (⟨unique, true⟩, rest)
      | none, some rest => some (⟨unique, true⟩, rest)
      | none, none => some (⟨unique, false⟩, rest)

/-! ## Readers -/

/-- What an entry of a list may be. -/
inductive Entry
  /-- An expression. -/
  | plain
  /-- An expression, perhaps with an alias. -/
  | item
  /-- An argument of a function of known meaning. -/
  | argument
  /-- An argument of any other function, perhaps with an alias after its word. -/
  | labelled
  deriving DecidableEq, Repr

/-- Whether an entry may have an alias after the word for it. -/
def Entry.mayBeLabelled : Entry → Bool
  | item => true
  | labelled => true
  | _ => false

/-- What was read, where nothing would be an error. -/
def required : Option (Option Expr × List Lexeme) → Option (Expr × List Lexeme)
  | some (some e, rest) => some (e, rest)
  | _ => none

/-- What follows an empty entry. The word for an alias is passed over if no alias follows; one that
    does is an error. -/
def afterNothing? (kind : Entry) (ls : List Lexeme) : Option (List Lexeme) :=
  match (if kind.mayBeLabelled then afterWord? "AS" ls else none) with
  | some (l :: rest) =>
    if (anyName? l).isSome || l = .mark .leftParen then none else some (l :: rest)
  | some [] => some []
  | none => some ls

mutual

/-- The operand that lexemes begin with, with the signs and negations in front of it, and the
    rest. -/
def operand? (d : Dialect) : Nat → List Lexeme → Option (Option Expr × List Lexeme)
  | 0, _ => none
  | n + 1, .mark .plus :: ls => operand? d n ls
  | n + 1, .mark .minus :: ls => do
    let (e, rest) ← required (operand? d n ls)
    return (some (.negative e), rest)
  | n + 1, .mark .tilde :: ls =>
    if d = .postgres then none
    else do
      let (e, rest) ← required (operand? d n ls)
      return (some (.complement e), rest)
  | n + 1, ls =>
    match afterWord? "NOT" ls with
    | some ls => do
      let (e, rest) ← required (level? d n equalityLevel ls)
      return (some (.not e), rest)
    | none => do
      let (e, rest) ← primary? d n ls
      match e with
      | none => return (none, rest)
      | some e =>
        let (e, rest) ← parts? d n e rest
        return (some e, rest)

/-- The operand without signs and parts that lexemes begin with, and the rest. -/
def primary? (d : Dialect) : Nat → List Lexeme → Option (Option Expr × List Lexeme)
  | 0, _ => none
  | _ + 1, .number t :: ls => some (some (.number t), ls)
  | _ + 1, .mark .dot :: .number t :: ls => some (some (.number ("0." ++ t)), ls)
  | _ + 1, .bytes base t :: ls => some (some (.bytes base t), ls)
  | _ + 1, .mark .star :: ls => some (some (.star []), ls)
  | _ + 1, .parameter t :: ls => some (some (.ofName (.parameter t)), ls)
  | _ + 1, .string t :: ls =>
    let (ts, rest) := stringRun ls
    some (some (ofStrings d t ts), rest)
  | n + 1, .name t :: .mark .leftParen :: ls => do
    let (arguments, rest) ← entries? d n .labelled ls
    let rest ← afterCall? rest
    return (some (.call (.quoted t) arguments.reduceOption), rest)
  | _ + 1, .name t :: ls => some (some (.ofName (.quoted t)), ls)
  | n + 1, .mark .leftParen :: ls =>
    match afterWord? "SELECT" ls with
    | some ls => do
      let (e, rest) ← query? d n ls
      let rest ← afterMark? .rightParen rest
      return (some (.paren e), rest)
    | none => do
      let (entries, rest) ← entries? d n .item ls
      let rest ← afterMark? .rightParen rest
      return (some (ofGroup entries), rest)
  | n + 1, .mark .leftBracket :: ls => do
    let (entries, rest) ← entries? d n .labelled ls
    let rest ← afterMark? .rightBracket rest
    return (some (.array entries.reduceOption), rest)
  | n + 1, .word w :: ls =>
    match upper w with
    | "NULL" => some (some .null, ls)
    | "TRUE" => some (some (.boolean true), ls)
    | "FALSE" => some (some (.boolean false), ls)
    | u =>
      if u == "CASE" && (afterMark? .dot ls).isNone then do
        let (e, rest) ← choice? d n ls
        return (some e, rest)
      else match (if isCallable w then afterMark? .leftParen ls else none) with
        | some ls => do
          let known := aggregates.contains u
          let (arguments, rest) ← entries? d n (if known then .argument else .labelled) ls
          let rest ← afterCall? rest
          if takesArguments u arguments.reduceOption.length then
            return (some (.call (.bare u) arguments.reduceOption), rest)
          else none
        | none =>
          if isReserved w then some (none, .word w :: ls)
          else some (some (.ofName (.bare w)), ls)
  | _ + 1, ls => some (none, ls)

/-- An operand with the parts of it that are named or numbered after it, and the rest. -/
def parts? (d : Dialect) : Nat → Expr → List Lexeme → Option (Expr × List Lexeme)
  | 0, _, _ => none
  | n + 1, e, .mark .leftBracket :: ls => do
    let (indices, rest) ← entries? d n .labelled ls
    let rest ← afterMark? .rightBracket rest
    if indices.reduceOption.isEmpty then none
    else parts? d n (.element e (indices.reduceOption.map (countedFrom d.firstIndex))) rest
  | n + 1, e, .mark .dot :: ls =>
    match ls with
    | .word w :: .mark .leftParen :: ls =>
      if isForbidden w then none
      else do
        let (arguments, rest) ← entries? d n .labelled ls
        let rest ← afterCall? rest
        parts? d n (.access e (.call (.bare w) arguments.reduceOption)) rest
    | .name t :: .mark .leftParen :: ls => do
      let (arguments, rest) ← entries? d n .labelled ls
      let rest ← afterCall? rest
      parts? d n (.access e (.call (.quoted t) arguments.reduceOption)) rest
    | .word w :: ls => if isForbidden w then none else parts? d n (e.withPart (.bare w)) ls
    | .name t :: ls => parts? d n (e.withPart (.quoted t)) ls
    | .parameter t :: ls => parts? d n (e.withPart (.parameter t)) ls
    | .mark .star :: ls => parts? d n e.withAllParts ls
    | .mark .leftBracket :: _ => none
    | ls => do
      let (part, rest) ← required (primary? d n ls)
      parts? d n (.access e part) rest
  | _ + 1, e, ls => some (e, ls)

/-- The expression of at least the given level that lexemes begin with, and the rest. -/
def level? (d : Dialect) : Nat → Nat → List Lexeme → Option (Option Expr × List Lexeme)
  | 0, _, _ => none
  | n + 1, least, ls => do
    let (e, rest) ← operand? d n ls
    match e with
    | none => return (none, rest)
    | some e =>
      let (e, rest) ← extend? d n least operandLevel e rest
      return (some e, rest)

/-- An expression with the operators after it that bind at least as tightly as the one given level
    and at most as tightly as the other, and the rest. -/
def extend? (d : Dialect) : Nat → Nat → Nat → Expr → List Lexeme → Option (Expr × List Lexeme)
  | 0, _, _, _, _ => none
  | n + 1, least, most, e, ls =>
    let fits (level : Nat) : Bool := least ≤ level && level ≤ most
    match operator? d ls, afterWord? "IS" ls, test? ls with
    | some (op, rest), _, _ =>
      if fits (op.level d) then do
        let (right, rest) ← required (level? d n (op.level d + 1) rest)
        extend? d n least (op.level d) (combine d op e right) rest
      else some (e, ls)
    | none, some rest, _ =>
      if fits d.identityLevel then do
        match ← identity? d n e rest with
        | some (e, rest) => extend? d n least d.identityReach e rest
        | none => return (e, ls)
      else some (e, ls)
    | none, none, some (negated, test, rest) =>
      if fits rangeLevel then do
        let (e, rest) ← tested? d n e.asTested negated test rest
        extend? d n least rangeLevel e rest
      else some (e, ls)
    | none, none, none => some (e, ls)

/-- An identity with the given left operand, and the rest; nothing, if no right operand follows. -/
def identity? (d : Dialect) : Nat → Expr → List Lexeme → Option (Option (Expr × List Lexeme))
  | 0, _, _ => none
  | n + 1, e, ls =>
    let (negated, ls) := passWord "NOT" ls
    match (afterWord? "DISTINCT" ls).bind (afterWord? "FROM") with
    | some ls => do
      let (right, rest) ← required (level? d n bitLevel ls)
      return some (.binary (if negated then .sameAs else .differsFrom) e right, rest)
    | none =>
      match (if d = .sqlite then none else afterWord? "NULL" ls) with
      | some rest => some (some (identity d negated e .null, rest))
      | none => do
        let (right, rest) ← level? d n d.identityScope ls
        return right.map fun right => (identity d negated e right, rest)

/-- The test of the given operand, and the rest. -/
def tested? (d : Dialect) : Nat → Expr → Bool → Test → List Lexeme → Option (Expr × List Lexeme)
  | 0, _, _, _, _ => none
  | _ + 1, e, negated, .missing, ls =>
    some ((Expr.binary .is e .null).negatedIf negated, ls)
  | n + 1, e, negated, .like, ls => do
    let (right, rest) ← required (level? d n bitLevel ls)
    let likeness := Expr.binary (.like negated) e right
    match afterWord? "ESCAPE" rest with
    | some (.string t :: rest) => return (.escaping likeness (.string t), rest)
    | some _ => none
    | none => return (likeness, rest)
  | n + 1, e, negated, .between, ls => do
    let (low, rest) ← required (level? d n bitLevel ls)
    let (high, rest) ← required (level? d n bitLevel (passWord "AND" rest).2)
    return ((Expr.between e.asBounded low high).negatedIf negated, rest)
  | n + 1, e, negated, .member, ls =>
    match ls with
    | .mark .leftParen :: ls =>
      match afterWord? "SELECT" ls with
      | some ls => do
        let (q, rest) ← query? d n ls
        let rest ← afterMark? .rightParen rest
        return ((Expr.memberOf e (.paren q)).negatedIf negated, rest)
      | none => do
        let (entries, rest) ← entries? d n .plain ls
        let rest ← afterMark? .rightParen rest
        return ((Expr.member e entries.reduceOption).negatedIf negated, rest)
    | .mark .leftBracket :: ls => do
      let (entries, rest) ← entries? d n .plain ls
      let rest ← afterMark? .rightBracket rest
      return ((Expr.member e entries.reduceOption).negatedIf negated, rest)
    | ls => do
      let (collection, rest) ← primary? d n ls
      match collection with
      | none => return ((Expr.member e []).negatedIf negated, rest)
      | some collection =>
        let (collection, rest) ← parts? d n collection rest
        return ((Expr.memberOf e collection).negatedIf negated, rest)

/-- The choice after its first word, and the rest. -/
def choice? (d : Dialect) : Nat → List Lexeme → Option (Expr × List Lexeme)
  | 0, _ => none
  | n + 1, ls => do
    let (subject, rest) ← level? d n disjunctionLevel ls
    let (cases, rest) ← cases? d n rest
    if cases.isEmpty then none
    else
      let (cases, rest) ← otherwise? d n cases rest
      let rest ← afterWord? "END" rest
      return ((subject.elim Expr.choice Expr.choiceOf) cases, rest)

/-- The cases of a choice with the one for all else, if it follows, and the rest. -/
def otherwise? (d : Dialect) : Nat → List Expr → List Lexeme → Option (List Expr × List Lexeme)
  | 0, _, _ => none
  | n + 1, cases, ls =>
    match afterWord? "ELSE" ls with
    | some ls => do
      let (value, rest) ← required (level? d n disjunctionLevel ls)
      return (cases ++ [.otherwise value], rest)
    | none => some (cases, ls)

/-- The cases that lexemes begin with, and the rest. -/
def cases? (d : Dialect) : Nat → List Lexeme → Option (List Expr × List Lexeme)
  | 0, _ => none
  | n + 1, ls =>
    match afterWord? "WHEN" ls with
    | some rest => do
      let (condition, rest) ← required (level? d n disjunctionLevel rest)
      let (value, rest) ← required (level? d n disjunctionLevel (passWord "THEN" rest).2)
      let (cases, rest) ← cases? d n rest
      return (.when condition value :: cases, rest)
    | none => some ([], ls)

/-- The entries with commas between them that lexemes begin with, and the rest. Where an entry is
    empty there is nothing. -/
def entries? (d : Dialect) : Nat → Entry → List Lexeme → Option (List (Option Expr) × List Lexeme)
  | 0, _, _ => none
  | n + 1, kind, ls => do
    let (e, rest) ← listed? d n kind ls
    match rest with
    | .mark .comma :: rest =>
      let (es, rest) ← entries? d n kind rest
      return (e :: es, rest)
    | rest => return ([e], rest)

/-- The entry that lexemes begin with, and the rest. -/
def listed? (d : Dialect) : Nat → Entry → List Lexeme → Option (Option Expr × List Lexeme)
  | 0, _, _ => none
  | n + 1, kind, ls =>
    match (if kind = .argument ∨ kind = .labelled then afterWord? "DISTINCT" ls else none) with
    | some ls => do
      let (entries, rest) ← entries? d n .plain ls
      return (some (.distinct entries.reduceOption), rest)
    | none => do
      let (e, rest) ← level? d n disjunctionLevel ls
      match e with
      | some e =>
        let (e, rest) ← alias? d n kind e rest
        return (some e, rest)
      | none => (afterNothing? kind rest).map fun rest => (none, rest)

/-- An entry with its alias, if it has one, and the rest. -/
def alias? (d : Dialect) : Nat → Entry → Expr → List Lexeme → Option (Expr × List Lexeme)
  | 0, _, _, _ => none
  | n + 1, kind, e, ls =>
    match kind with
    | .plain => some (e, ls)
    | .argument => some (e, ls)
    | .labelled =>
      match afterWord? "AS" ls with
      | some ls => withAlias anyName? e ls
      | none => some (e, ls)
    | .item =>
      if boundFollows d n ls then some (e, ls)
      else match afterWord? "AS" ls with
        | some ls => withAlias anyName? e ls
        | none => withAlias (plainName? d) e ls

/-- Whether lexemes begin with a bound of the number of rows, so that its word is no alias. -/
def boundFollows (d : Dialect) : Nat → List Lexeme → Bool
  | 0, _ => false
  | n + 1, ls =>
    match afterWord? "LIMIT" ls, afterWord? "OFFSET" ls with
    | some ls, _ =>
      match level? d n sumLevel ls with
      | some (_, .mark .comma :: rest) => (required (level? d n sumLevel rest)).isSome
      | some (e, _) => e.isSome
      | none => false
    | none, some ls => (required (level? d n sumLevel ls)).isSome
    | none, none => false

/-- The query after its first word that lexemes begin with, and the rest. -/
def query? (d : Dialect) : Nat → List Lexeme → Option (Expr × List Lexeme)
  | 0, _ => none
  | n + 1, ls => do
    let (opening, rest) ← opening? ls
    let (items, rest) ← entries? d n .item rest
    match afterWord? "FROM" rest with
    | some rest =>
      let (sources, rest) ← entries? d n .item rest
      return (.query opening.unique items.reduceOption sources.reduceOption, rest)
    | none => return (.query opening.unique items.reduceOption [], rest)

end

/-! ## Whole rows -/

/-- The steps that are enough to read lexemes. -/
def steps (ls : List Lexeme) : Nat :=
  8 * ls.length + 8

/-- The expression that lexemes begin with, and the rest: `exp.condition` reads one that is all of
    them. -/
def read? (d : Dialect) (ls : List Lexeme) : Option (Expr × List Lexeme) :=
  required (level? d (steps ls) disjunctionLevel ls)

/-- The sum that lexemes begin with, and the rest. -/
def readSum? (d : Dialect) (ls : List Lexeme) : Option (Expr × List Lexeme) :=
  required (level? d (steps ls) sumLevel ls)

/-- The items with commas between them that lexemes begin with, and the rest. Empty entries are
    passed over, as `sqlglot.parse_one` does between the items of a query. -/
def readItems? (d : Dialect) (ls : List Lexeme) : Option (List Expr × List Lexeme) :=
  (entries? d (steps ls) .item ls).map fun (items, rest) => (items.reduceOption, rest)

/-- The item that lexemes begin with, and the rest. -/
def readItem? (d : Dialect) (ls : List Lexeme) : Option (Expr × List Lexeme) :=
  required (listed? d (steps ls) .item ls)

/-! ## Lemmas -/

/-- A comparison is read back from the mark that it is written as, unless another mark makes it the
    shift of a number. -/
theorem operator?_lexemes {d : Dialect} {op : Operator} {ls : List Lexeme}
    (hop : op.isComparison = true) (hless : ls.head? ≠ some (.mark .less))
    (hgreater : ls.head? ≠ some (.mark .greater)) :
    operator? d (op.lexemes d ++ ls) = some (op, ls) := by
  have hmark : ∀ m, operator? d (.mark m :: ls) = (markOperator? d m).map fun op => (op, ls) := by
    intro m
    cases ls with
    | nil => cases m <;> rfl
    | cons l ls =>
      simp only [List.head?_cons, ne_eq, Option.some.injEq] at hless hgreater
      cases m <;> simp [operator?, hless, hgreater]
  cases op with
  | equal => exact hmark .equal
  | notEqual => exact hmark .notEqual
  | less => exact hmark .less
  | lessEqual => exact hmark .lessEqual
  | greater => exact hmark .greater
  | greaterEqual => exact hmark .greaterEqual
  | _ => cases hop

theorem afterMark?_eq_some_iff {m : Mark} {ls rest : List Lexeme} :
    afterMark? m ls = some rest ↔ ls = .mark m :: rest := by
  unfold afterMark?
  split <;> simp_all [eq_comm]

end Expr

end PatternSql.Sql
