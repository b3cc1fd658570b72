import DocQuery.Statement.ParseError
import DocQuery.Statement.Site

/-!
# From tokens to statements

Reading by descent.  The binding of operators, from loose to tight, is `OR`,
`AND`, `NOT`, comparison and `IN`, `+` and `-`, `*` and `/`, operand.  Whatever
stands in brackets is read by an inner grammar, which nests one level less; since
a bracket is a token, a query of `n` tokens needs no more than `n` levels.
-/

namespace DocQuery

/-- A reader consumes the front of a list of tokens, or says what is misplaced. -/
abbrev Parser (α : Type) := List Placed → Except PlacedError (α × List Placed)

namespace Parser

def peek : List Placed → Token
  | placed :: _ => placed.token
  | [] => .finish

def errorAt (problem : Misplacement) (ts : List Placed) : PlacedError :=
  ⟨problem, ts.head?.map Placed.offset⟩

def fail {α : Type} (problem : Misplacement) : Parser α := fun ts =>
  .error (errorAt problem ts)

def expect (token : Token) : Parser Unit := fun ts =>
  if peek ts = token then .ok ((), ts.tail) else fail (.expected token (peek ts)) ts

def name : Parser String := fun ts =>
  match peek ts with
  | .identifier name => .ok (name, ts.tail)
  | found => fail (.expectedName found) ts

def count : Parser Nat := fun ts =>
  match peek ts with
  | .integer n => .ok (n, ts.tail)
  | found => fail (.expectedCount found) ts

/--
Continues a chain of operands joined by operators, grouping to the left;
`budget` bounds the number of operators.
-/
def chainFrom {α β : Type} (operand : Parser α) (operator? : Token → Option β)
    (combine : β → α → α → α) : Nat → α → Parser α
  | 0, left, ts => .ok (left, ts)
  | budget + 1, left, ts =>
      match operator? (peek ts) with
      | none => .ok (left, ts)
      | some op => do
          let (right, rest) ← operand ts.tail
          chainFrom operand operator? combine budget (combine op left right) rest

def chain {α β : Type} (operand : Parser α) (operator? : Token → Option β)
    (combine : β → α → α → α) : Parser α := fun ts => do
  let (first, rest) ← operand ts
  chainFrom operand operator? combine rest.length first rest

/--
The items after the first one in a list with separators; `budget` bounds their
number.
-/
def separatedFrom {α : Type} (separator : Token) (item : Parser α) : Nat → Parser (List α)
  | 0, ts => .ok ([], ts)
  | budget + 1, ts =>
      if peek ts = separator then do
        let (next, rest) ← item ts.tail
        let (others, rest) ← separatedFrom separator item budget rest
        .ok (next :: others, rest)
      else .ok ([], ts)

def separated {α : Type} (separator : Token) (item : Parser α) : Parser (List α) := fun ts => do
  let (first, rest) ← item ts
  let (others, rest) ← separatedFrom separator item rest.length rest
  .ok (first :: others, rest)

/-- Possibly no items between commas, up to and with a closing bracket. -/
def closedBy {α : Type} (close : Mark) (item : Parser α) : Parser (List α) := fun ts =>
  if peek ts = .mark close then .ok ([], ts.tail)
  else do
    let (items, rest) ← separated (.mark .comma) item ts
    let ((), rest) ← expect (.mark close) rest
    .ok (items, rest)

/-- `AS` with a name or a keyword, or a bare name; nothing when there is neither. -/
def label? : Parser (Option String) := fun ts =>
  match peek ts with
  | .keyword .as =>
      match peek ts.tail with
      | .keyword word => .ok (some word.spelling, ts.tail.tail)
      | _ => do
          let (label, rest) ← name ts.tail
          .ok (some label, rest)
  | .identifier label => .ok (some label, ts.tail)
  | _ => .ok (none, ts)

/-- A label, which a subquery used as a source must have. -/
def label : Parser String := fun ts => do
  match ← label? ts with
  | (some label, rest) => .ok (label, rest)
  | (none, rest) => fail .subqueryWithoutLabel rest

/-- One more segment of a path in brackets: a text, a parameter or an index. -/
def bracketSegment : Parser String := fun ts =>
  let close (segment : String) : Except PlacedError (String × List Placed) := do
    let ((), rest) ← expect (.mark .rightBracket) ts.tail
    .ok (segment, rest)
  match peek ts with
  | .text segment => close segment
  | .parameter segment => close segment
  | .integer n => close (toString n)
  | found => fail (.expectedSegment found) ts

def segmentsFrom : Nat → Parser (List String)
  | 0, ts => .ok ([], ts)
  | budget + 1, ts =>
      match peek ts with
      | .mark .dot => do
          let (segment, rest) ← name ts.tail
          let (others, rest) ← segmentsFrom budget rest
          .ok (segment :: others, rest)
      | .mark .leftBracket => do
          let (segment, rest) ← bracketSegment ts.tail
          let (others, rest) ← segmentsFrom budget rest
          .ok (segment :: others, rest)
      | _ => .ok ([], ts)

def pathFrom (first : String) : Parser (List String) := fun ts => do
  let (others, rest) ← segmentsFrom ts.length ts
  .ok (first :: others, rest)

def path : Parser (List String) := fun ts => do
  let (first, rest) ← name ts
  pathFrom first rest

end Parser

/-- The readers of what may stand in brackets. -/
structure Grammar where
  condition : Parser Condition
  statement : Parser Statement

namespace Grammar

open DocQuery.Parser

def additive? : Token → Option Arithmetic
  | .mark .plus => some .add
  | .mark .minus => some .subtract
  | _ => none

def multiplicative? : Token → Option Arithmetic
  | .mark .star => some .multiply
  | .mark .slash => some .divide
  | _ => none

def comparison? : Token → Option Comparison
  | .mark .equal => some .equal
  | .mark .notEqual => some .notEqual
  | .mark .less => some .less
  | .mark .lessOrEqual => some .lessOrEqual
  | .mark .greater => some .greater
  | .mark .greaterOrEqual => some .greaterOrEqual
  | _ => none

def combine (op : Arithmetic) (left right : Term) : Term :=
  Term.plain (.arithmetic op left right)

def term (inner : Grammar) : Parser Term := fun ts => do
  let (condition, rest) ← inner.condition ts
  .ok (Term.ofCondition condition, rest)

def closedStatement (inner : Grammar) : Parser Statement := fun ts => do
  let (statement, rest) ← inner.statement ts
  let ((), rest) ← expect (.mark .rightParen) rest
  .ok (statement, rest)

def key : Parser String := fun ts =>
  match peek ts with
  | .identifier name => .ok (name, ts.tail)
  | .text name => .ok (name, ts.tail)
  | .keyword word => .ok (word.spelling, ts.tail)
  | found => fail (.expectedKey found) ts

/-- A member of an object literal: a term labelled by its name. -/
def member (inner : Grammar) : Parser Term := fun ts => do
  let (name, rest) ← key ts
  let ((), rest) ← expect (.mark .colon) rest
  let (value, rest) ← term inner rest
  .ok (value.withLabel name, rest)

/-- The arguments of a call, from its opening bracket on. -/
def arguments (inner : Grammar) : Parser (List Term) := fun ts => do
  let ((), rest) ← expect (.mark .leftParen) ts
  closedBy .rightParen (term inner) rest

def call (inner : Grammar) (name : String) : Parser Term := fun ts =>
  match Function.ofName? name with
  | none => fail (.unknownFunction name) ts
  | some f => do
      let (arguments, rest) ← arguments inner ts
      .ok (Term.plain (.call f arguments), rest)

def literal? : Token → Option Constant
  | .integer n => some (.integer n)
  | .float x => some (.float x)
  | .text s => some (.text s)
  | .parameter name => some (.parameter name)
  | .keyword .true => some (.bool true)
  | .keyword .false => some (.bool false)
  | .keyword .null => some .null
  | _ => none

/-- An operand that is neither a literal nor begins with a minus sign. -/
def compound (inner : Grammar) : Parser Term := fun ts =>
  match peek ts with
  | .mark .leftParen =>
      if peek ts.tail = .keyword .select then do
        let (statement, rest) ← closedStatement inner ts.tail
        .ok (Term.plain (.subquery statement), rest)
      else do
        let (value, rest) ← term inner ts.tail
        let ((), rest) ← expect (.mark .rightParen) rest
        .ok (value, rest)
  | .keyword .exists => do
      let ((), rest) ← expect (.mark .leftParen) ts.tail
      let (statement, rest) ← closedStatement inner rest
      .ok (Term.plain (.existence statement), rest)
  | .mark .leftBrace => do
      let (members, rest) ← closedBy .rightBrace (member inner) ts.tail
      .ok (Term.plain (.object members), rest)
  | .mark .leftBracket => do
      let (elements, rest) ← closedBy .rightBracket (term inner) ts.tail
      .ok (Term.plain (.array elements), rest)
  | .identifier name =>
      if peek ts.tail = .mark .leftParen then call inner name ts.tail
      else do
        let (segments, rest) ← pathFrom name ts.tail
        .ok (Term.plain (.path segments), rest)
  | found => fail (.expectedOperand found) ts

/-- A negative literal, from its minus sign on, as a constant. -/
def negativeLiteral? : Token → Option Constant
  | .integer n => some (.integer (-n))
  | .float x => some (.float (-x))
  | _ => none

/--
An operand.  A minus sign belongs to a literal number after it and otherwise
subtracts the operand after it from zero.
-/
def operand (inner : Grammar) : Parser Term
  | [] => compound inner []
  | first :: rest =>
      match literal? first.token with
      | some c => .ok (Term.plain (.constant c), rest)
      | none =>
          if first.token = .mark .minus then
            match negativeLiteral? (peek rest) with
            | some c => .ok (Term.plain (.constant c), rest.tail)
            | none => do
                let (value, rest) ← operand inner rest
                .ok (combine .subtract (Term.plain (.constant (.integer 0))) value, rest)
          else compound inner (first :: rest)

def product (inner : Grammar) : Parser Term :=
  chain (operand inner) multiplicative? combine

def sum (inner : Grammar) : Parser Term :=
  chain (product inner) additive? combine

def membership (inner : Grammar) (negated : Bool) (needle : Term) : Parser Condition := fun ts => do
  let (candidates, rest) ← arguments inner ts
  .ok (.term ⟨none, negated, .call .membership (needle :: candidates)⟩, rest)

/-- A comparison, a membership test, or a term by itself. -/
def comparison (inner : Grammar) : Parser Condition := fun ts => do
  let (left, rest) ← sum inner ts
  match peek rest with
  | .keyword .in => membership inner false left rest.tail
  | .keyword .not =>
      if peek rest.tail = .keyword .in then membership inner true left rest.tail.tail
      else .ok (.term left, rest)
  | found =>
      match comparison? found with
      | some op => do
          let (right, rest) ← sum inner rest.tail
          .ok (.compare op left right, rest)
      | none => .ok (.term left, rest)

/-- A comparison with any number of `NOT` before it. -/
def negation (inner : Grammar) : Parser Condition
  | [] => comparison inner []
  | first :: rest =>
      if first.token = .keyword .not then do
        let (condition, rest) ← negation inner rest
        .ok (condition.negate, rest)
      else comparison inner (first :: rest)

/-- Several conditions joined into one; a single one stays as it is. -/
def joined (join : List Condition → Condition) : List Condition → Condition
  | [single] => single
  | several => join several

def conjunction (inner : Grammar) : Parser Condition := fun ts => do
  let (parts, rest) ← separated (.keyword .and) (negation inner) ts
  .ok (joined .all parts, rest)

def disjunction (inner : Grammar) : Parser Condition := fun ts => do
  let (parts, rest) ← separated (.keyword .or) (conjunction inner) ts
  .ok (joined .any parts, rest)

def value (inner : Grammar) : Parser Term := fun ts => do
  let (condition, rest) ← disjunction inner ts
  .ok (Term.ofCondition condition, rest)

def column (inner : Grammar) : Parser Term := fun ts => do
  let (value, rest) ← value inner ts
  match ← label? rest with
  | (some label, rest) => .ok (value.withLabel label, rest)
  | (none, rest) => .ok (value, rest)

structure Modifiers where
  distinct : Bool
  count : Option Nat
  value : Bool

/-- Any number of `DISTINCT` and `TOP n`, and `VALUE` at the end; `budget` bounds their number. -/
def modifiersFrom : Nat → Modifiers → Parser Modifiers
  | 0, found, ts => .ok (found, ts)
  | budget + 1, found, ts =>
      match peek ts with
      | .keyword .distinct => modifiersFrom budget ⟨true, found.count, found.value⟩ ts.tail
      | .keyword .top => do
          let (n, rest) ← count ts.tail
          modifiersFrom budget ⟨found.distinct, some n, found.value⟩ rest
      | .keyword .value => .ok (⟨found.distinct, found.count, true⟩, ts.tail)
      | _ => .ok (found, ts)

def modifiers : Parser Modifiers := fun ts =>
  modifiersFrom ts.length ⟨false, none, false⟩ ts

def projection? (inner : Grammar) (valueOnly : Bool) : Parser (Option Projection) := fun ts =>
  if valueOnly then do
    let (terms, rest) ← separated (.mark .comma) (column inner) ts
    match terms with
    | [term] => .ok (some (.value term), rest)
    | _ => fail .notOneValue rest
  else if peek ts = .mark .star then .ok (none, ts.tail)
  else do
    let (terms, rest) ← separated (.mark .comma) (column inner) ts
    .ok (some (.columns terms), rest)

def beginsSubquery (ts : List Placed) : Bool :=
  peek ts = .mark .leftParen && peek ts.tail = .keyword .select

def labelledSubquery (inner : Grammar) : Parser (Statement × String) := fun ts => do
  let (statement, rest) ← closedStatement inner ts.tail
  let (label, rest) ← label rest
  .ok ((statement, label), rest)

def source (inner : Grammar) : Parser Source := fun ts =>
  if beginsSubquery ts then do
    let ((statement, label), rest) ← labelledSubquery inner ts
    .ok (.subquery statement label, rest)
  else do
    let (first, rest) ← name ts
    if peek rest = .keyword .in then do
      let (segments, rest) ← path rest.tail
      .ok (.each first segments, rest)
    else do
      let (segments, rest) ← pathFrom first rest
      let (label, rest) ← label? rest
      .ok (.path segments label, rest)

/-- The source, the documents themselves when there is no `FROM`. -/
def sourceClause (inner : Grammar) : Parser Source := fun ts =>
  if peek ts = .keyword .from then source inner ts.tail else .ok (.documents, ts)

def join (inner : Grammar) : Parser Join := fun ts =>
  if beginsSubquery ts then do
    let ((statement, label), rest) ← labelledSubquery inner ts
    .ok (.subquery statement label, rest)
  else do
    let (first, rest) ← name ts
    let ((), rest) ← expect (.keyword .in) rest
    let (segments, rest) ← path rest
    .ok (.each first segments, rest)

def joinClauses (inner : Grammar) : Parser (List Join) := fun ts =>
  separatedFrom (.keyword .join) (join inner) ts.length ts

def filterClause (inner : Grammar) : Parser (Option Condition) := fun ts =>
  if peek ts = .keyword .where then do
    let (condition, rest) ← disjunction inner ts.tail
    .ok (some condition.asFilter, rest)
  else .ok (none, ts)

def groupingClause (inner : Grammar) : Parser (List Term) := fun ts =>
  if peek ts = .keyword .group then do
    let ((), rest) ← expect (.keyword .by) ts.tail
    separated (.mark .comma) (value inner) rest
  else .ok ([], ts)

/-- A term to order by, ascending unless it says otherwise. -/
def sortKey (inner : Grammar) : Parser SortKey := fun ts => do
  let (term, rest) ← sum inner ts
  match peek rest with
  | .keyword .desc => .ok (⟨term, .descending⟩, rest.tail)
  | .keyword .asc => .ok (⟨term, .ascending⟩, rest.tail)
  | _ => .ok (⟨term, .ascending⟩, rest)

def orderingClause (inner : Grammar) : Parser (List SortKey) := fun ts =>
  if peek ts = .keyword .order then do
    let ((), rest) ← expect (.keyword .by) ts.tail
    separated (.mark .comma) (sortKey inner) rest
  else .ok ([], ts)

/-- How many results are skipped and kept; `top` is kept when nothing is said here. -/
def window (top : Option Nat) : Parser (Nat × Option Nat) := fun ts =>
  match peek ts with
  | .keyword .offset => do
      let (offset, rest) ← count ts.tail
      let ((), rest) ← expect (.keyword .limit) rest
      let (n, rest) ← count rest
      .ok ((offset, some n), rest)
  | .keyword .limit => do
      let (n, rest) ← count ts.tail
      .ok ((0, some n), rest)
  | _ => .ok ((0, top), ts)

/-- The projection a star stands for: the value bound by the source. -/
def starred (source : Source) : Option Projection → Parser Projection
  | some projection, ts => .ok (projection, ts)
  | none, ts =>
      match source.bindingName? with
      | some name => .ok (.value (Term.plain (.path [name])), ts)
      | none => fail .starWithoutSource ts

/-- A statement, without regard to what follows it. -/
def query (inner : Grammar) : Parser Statement := fun ts => do
  let ((), rest) ← expect (.keyword .select) ts
  let (modifiers, rest) ← modifiers rest
  let (projection?, rest) ← projection? inner modifiers.value rest
  let (source, rest) ← sourceClause inner rest
  let (projection, rest) ← starred source projection? rest
  let (joins, rest) ← joinClauses inner rest
  let (filter, rest) ← filterClause inner rest
  let (grouping, rest) ← groupingClause inner rest
  let (ordering, rest) ← orderingClause inner rest
  let ((offset, count), rest) ← window modifiers.count rest
  .ok (⟨projection, source, joins, filter, grouping, ordering, modifiers.distinct, offset, count⟩,
    rest)

/-- A grammar that reads nothing, for what stands deeper than brackets can reach. -/
def refusing : Grammar :=
  ⟨fun ts => fail (.expectedOperand (peek ts)) ts,
    fun ts => fail (.expected (.keyword .select) (peek ts)) ts⟩

def ofDepth : Nat → Grammar
  | 0 => refusing
  | depth + 1 => ⟨disjunction (ofDepth depth), query (ofDepth depth)⟩

end Grammar

namespace Statement

/-- The statement that a list of tokens spells; nothing may follow it. -/
def ofTokens (ts : List Placed) : Except PlacedError Statement := do
  let (statement, rest) ← Grammar.query (Grammar.ofDepth ts.length) ts
  match Parser.peek rest with
  | .finish => .ok statement
  | found => .error (Parser.errorAt (.afterEnd found) rest)

/-- The statement that a list of tokens spells, with its calls of `RAND` told apart. -/
def read (ts : List Placed) : Except PlacedError Statement :=
  (ofTokens ts).map (Statement.sited [])

theorem read_eq_ok {ts : List Placed} {s : Statement} :
    read ts = .ok s ↔ ∃ t, ofTokens ts = .ok t ∧ t.sited [] = s := by
  unfold read
  cases ofTokens ts <;> simp [Except.map]

def parse (query : List Char) : Except ParseError Statement :=
  match tokenize query with
  | .error error => .error (.lexical error)
  | .ok tokens =>
      match read tokens with
      | .error error => .error (.placed error)
      | .ok statement => .ok statement

end Statement

end DocQuery
