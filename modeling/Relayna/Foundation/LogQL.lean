import Mathlib.Data.List.Basic
import Mathlib.Data.List.Infix

/-!
# LogQL queries as text

A stream selector followed by line and label filters, each with one string operand. `Lexis.read`
reads a text: a lexer with the string literals of Go, then a parser. `Query.render` writes a query
in one layout, with names as they are and with backslashes and quotes escaped in the literals.
Reading what has been written gives the query back when its names are identifiers and its literals
have no line break and no NUL (`read_render`). No name of a query that was read is anything but an
identifier (`names_of_read`).

Which characters make up names, the keywords and the escapes by code are parameters.
-/
namespace LogQL

inductive Operator
  | eq | neq | re | nre
  deriving DecidableEq, Repr

inductive LineOperator
  | contains | lacks | matching | differing
  deriving DecidableEq, Repr

structure Matcher where
  name : String
  operator : Operator
  value : String
  deriving DecidableEq, Repr

inductive Stage
  | line (operator : LineOperator) (value : String)
  | label (name : String) (operator : Operator) (value : String)
  deriving DecidableEq, Repr

structure Query where
  matchers : List Matcher
  stages : List Stage
  deriving DecidableEq, Repr

inductive Token
  | openBrace | closeBrace | comma | pipe | contains | matching
  | operator (operator : Operator)
  | keyword (name : String)
  | identifier (name : String)
  | text (value : String)
  deriving DecidableEq, Repr

/-- What the characters after a backslash mean so far. -/
inductive Coded
  | more
  | done (value : List Char)
  | bad

/-- The characters with a meaning of their own. -/
def signs : List Char :=
  ['\x7b', '\x7d', ',', '|', '=', '!', '~', '"', '\x60', '#', ' ', '\t', '\n', '\r']

structure Lexis where
  letter : Char → Bool
  digit : Char → Bool
  keyword : String → Bool
  /-- The escapes that give a code. -/
  coded : List Char → Coded
  sign_plain : ∀ c ∈ signs, letter c = false ∧ digit c = false

inductive Mode
  | between
  | name (read : List Char)
  | quoted (read : List Char)
  | escape (read code : List Char)
  | raw (read : List Char)
  | comment
  | sign (c : Char)
  deriving DecidableEq, Repr

def blanks : List Char := [' ', '\t', '\n', '\r']

def single : Char → Option Token
  | '\x7b' => some .openBrace
  | '\x7d' => some .closeBrace
  | ',' => some .comma
  | _ => none

def pair : Char → Char → Option Token
  | '|', '=' => some .contains
  | '|', '~' => some .matching
  | '!', '=' => some (.operator .neq)
  | '!', '~' => some (.operator .nre)
  | '=', '~' => some (.operator .re)
  | _, _ => none

def alone : Char → Option Token
  | '|' => some .pipe
  | '=' => some (.operator .eq)
  | _ => none

/-- The escapes of one character. -/
def simpleEscapes : List (Char × Char) :=
  [('\\', '\\'), ('"', '"'), ('a', '\x07'), ('b', '\x08'), ('f', '\x0c'), ('n', '\n'),
    ('r', '\r'), ('t', '\t'), ('v', '\x0b')]

/-- A character that may stand in a literal as it is. -/
def inLiteral (c : Char) : Bool := c ≠ '\n' && c ≠ '\x00'

namespace Lexis

variable (x : Lexis)

def wordChar (c : Char) : Bool := x.letter c || x.digit c

def decode (code : List Char) : Coded :=
  match code with
  | [c] =>
    match simpleEscapes.lookup c with
    | some value => .done [value]
    | none => x.coded code
  | _ => x.coded code

/-- The token of a word, read from its end. -/
def word (read : List Char) : Token :=
  if x.keyword (.ofList read.reverse) then .keyword (.ofList read.reverse)
  else .identifier (.ofList read.reverse)

/-- A character that no token has begun before. -/
def start (c : Char) : Option (List Token × Mode) :=
  if c ∈ blanks then some ([], .between)
  else if c = '#' then some ([], .comment)
  else if c = '"' then some ([], .quoted [])
  else if c = '\x60' then some ([], .raw [])
  else if c ∈ ['|', '=', '!'] then some ([], .sign c)
  else if x.letter c then some ([], .name [c])
  else (single c).map fun token => ([token], .between)

def after (token : Token) (next : List Token × Mode) : List Token × Mode :=
  (token :: next.1, next.2)

def step : Mode → Char → Option (List Token × Mode)
  | .between, c => x.start c
  | .name read, c =>
    if x.wordChar c then some ([], .name (c :: read)) else (x.start c).map (after (x.word read))
  | .quoted read, c =>
    if c = '"' then some ([.text (.ofList read.reverse)], .between)
    else if c = '\\' then some ([], .escape read [])
    else if inLiteral c then some ([], .quoted (c :: read))
    else none
  | .escape read code, c =>
    match x.decode (code ++ [c]) with
    | .more => some ([], .escape read (code ++ [c]))
    | .done value => some ([], .quoted (value.reverse ++ read))
    | .bad => none
  | .raw read, c =>
    if c = '\x60' then some ([.text (.ofList read.reverse)], .between)
    else if c = '\x00' then none
    else some ([], .raw (c :: read))
  | .comment, c => some ([], if c = '\n' then .between else .comment)
  | .sign s, c =>
    match pair s c with
    | some token => some ([token], .between)
    | none => (alone s).bind fun token => (x.start c).map (after token)

def finish : Mode → Option (List Token)
  | .between | .comment => some []
  | .name read => some [x.word read]
  | .sign s => (alone s).map ([·])
  | _ => none

/-- The tokens of a text that is entered in a mode. -/
def run : Mode → List Char → Option (List Token)
  | mode, [] => x.finish mode
  | mode, c :: rest => (x.step mode c).bind fun next => (run next.2 rest).map (next.1 ++ ·)

def lex (text : String) : Option (List Token) := x.run .between text.toList

end Lexis

def parseMatchers : List Token → Option (List Matcher × List Token)
  | .identifier name :: .operator op :: .text value :: .comma :: rest =>
    (parseMatchers rest).map fun read => (⟨name, op, value⟩ :: read.1, read.2)
  | .identifier name :: .operator op :: .text value :: .closeBrace :: rest =>
    some ([⟨name, op, value⟩], rest)
  | _ => none

/-- What stands between the braces of a selector, and the tokens after it. -/
def parseSelector : List Token → Option (List Matcher × List Token)
  | .closeBrace :: rest => some ([], rest)
  | tokens => parseMatchers tokens

def parseStages : List Token → Option (List Stage)
  | [] => some []
  | .contains :: .text value :: rest => (parseStages rest).map (.line .contains value :: ·)
  | .matching :: .text value :: rest => (parseStages rest).map (.line .matching value :: ·)
  | .operator .neq :: .text value :: rest => (parseStages rest).map (.line .lacks value :: ·)
  | .operator .nre :: .text value :: rest => (parseStages rest).map (.line .differing value :: ·)
  | .pipe :: .identifier name :: .operator op :: .text value :: rest =>
    (parseStages rest).map (.label name op value :: ·)
  | _ => none

def parse : List Token → Option Query
  | .openBrace :: rest =>
    (parseSelector rest).bind fun read => (parseStages read.2).map fun stages => ⟨read.1, stages⟩
  | _ => none

def Lexis.read (x : Lexis) (text : String) : Option Query := (x.lex text).bind parse

/-! ### Writing a query -/

def Operator.text : Operator → List Char
  | .eq => ['=']
  | .neq => ['!', '=']
  | .re => ['=', '~']
  | .nre => ['!', '~']

def LineOperator.text : LineOperator → List Char
  | .contains => ['|', '=']
  | .lacks => ['!', '=']
  | .matching => ['|', '~']
  | .differing => ['!', '~']

def escape (c : Char) : List Char :=
  if c = '\\' then ['\\', '\\'] else if c = '"' then ['\\', '"'] else [c]

def quoted (value : String) : List Char := '"' :: (value.toList.flatMap escape ++ ['"'])

def Matcher.render (m : Matcher) : List Char :=
  m.name.toList ++ (m.operator.text ++ quoted m.value)

def Stage.render : Stage → List Char
  | .line op value => op.text ++ ' ' :: quoted value
  | .label name op value => '|' :: ' ' :: (name.toList ++ (op.text ++ quoted value))

def renderMatchers : List Matcher → List Char
  | [] => []
  | [m] => m.render
  | m :: n :: ms => m.render ++ ',' :: renderMatchers (n :: ms)

theorem renderMatchers_eq (matchers : List Matcher) :
    renderMatchers matchers = [','].intercalate (matchers.map Matcher.render) := by
  induction matchers with
  | nil => rfl
  | cons m matchers ih =>
    cases matchers with
    | nil => simp [renderMatchers]
    | cons n matchers =>
      rw [renderMatchers, ih, List.map_cons, List.map_cons, List.map_cons,
        List.intercalate_cons_cons]
      simp

def Query.render (q : Query) : List Char :=
  '\x7b' :: (renderMatchers q.matchers ++ '\x7d' :: q.stages.flatMap fun s => ' ' :: s.render)

/-! ### Tokens of what was written -/

def LineOperator.token : LineOperator → Token
  | .contains => .contains
  | .lacks => .operator .neq
  | .matching => .matching
  | .differing => .operator .nre

def Matcher.tokens (m : Matcher) : List Token :=
  [.identifier m.name, .operator m.operator, .text m.value]

def Stage.tokens : Stage → List Token
  | .line op value => [op.token, .text value]
  | .label name op value => [.pipe, .identifier name, .operator op, .text value]

def matcherTokens : List Matcher → List Token
  | [] => []
  | [m] => m.tokens
  | m :: n :: ms => m.tokens ++ .comma :: matcherTokens (n :: ms)

def Query.tokens (q : Query) : List Token :=
  .openBrace :: (matcherTokens q.matchers ++ .closeBrace :: q.stages.flatMap Stage.tokens)

/-- A text that a literal can hold as it is written here. -/
def Readable (value : String) : Prop := value.toList.all inLiteral = true

instance (value : String) : Decidable (Readable value) := inferInstanceAs (Decidable (_ = true))

def Stage.value : Stage → String
  | .line _ value => value
  | .label _ _ value => value

def Query.values (q : Query) : List String :=
  q.matchers.map (·.value) ++ q.stages.map (·.value)

def Stage.names : Stage → List String
  | .line _ _ => []
  | .label name _ _ => [name]

def Query.names (q : Query) : List String :=
  q.matchers.map (·.name) ++ q.stages.flatMap (·.names)

section Conditions

variable {α β : Type} {p q : Prop} [Decidable p] [Decidable q] {a : Option α} {f : α → β}

theorem map_if : (if p then a else none).map f = if p then a.map f else none := by
  split <;> rfl

theorem if_if : (if p then if q then a else none else none) = if p ∧ q then a else none := by
  by_cases p <;> by_cases q <;> simp [*]

end Conditions

namespace Lexis

variable (x : Lexis)

/-- A name that the lexer reads as one word which is no keyword. -/
def Identifier (name : String) : Prop :=
  (∃ c cs, name.toList = c :: cs ∧ x.letter c = true ∧ cs.all x.wordChar = true) ∧
    x.keyword name = false

variable {x}

theorem not_letter {c : Char} (h : c ∈ signs) : x.letter c = false := (x.sign_plain c h).1

theorem not_wordChar {c : Char} (h : c ∈ signs) : x.wordChar c = false := by
  simp [wordChar, x.sign_plain c h]

theorem run_cons (mode : Mode) (c : Char) (rest : List Char) :
    x.run mode (c :: rest) =
      (x.step mode c).bind fun next => (x.run next.2 rest).map (next.1 ++ ·) := rfl

theorem run_step {mode : Mode} (next : Mode) {c : Char} (tokens : List Token)
    (h : x.step mode c = some (tokens, next)) (rest : List Char) :
    x.run mode (c :: rest) = (x.run next rest).map (tokens ++ ·) := by
  rw [run_cons, h, Option.bind_some]

theorem run_silent {mode : Mode} (next : Mode) {c : Char} (h : x.step mode c = some ([], next))
    (rest : List Char) : x.run mode (c :: rest) = x.run next rest := by
  rw [run_step next [] h]
  exact Option.map_id'

/-- A token that ends where the next begins is read before it. -/
theorem run_after {mode : Mode} {token : Token} {c : Char}
    (h : x.step mode c = (x.start c).map (after token)) (rest : List Char) :
    x.run mode (c :: rest) = (x.run .between (c :: rest)).map (token :: ·) := by
  rw [run_cons, run_cons, h]
  show _ = ((x.start c).bind _).map _
  cases x.start c with
  | none => rfl
  | some next =>
    simp only [Option.map_some, Option.bind_some, after, Option.map_map]
    rfl

theorem run_space (rest : List Char) : x.run .between (' ' :: rest) = x.run .between rest :=
  run_silent .between (by simp [step, start, blanks]) rest

theorem run_single {c : Char} (token : Token) (sign : c ∈ ['\x7b', '\x7d', ','])
    (h : single c = some token) (rest : List Char) :
    x.run .between (c :: rest) = (x.run .between rest).map (token :: ·) := by
  refine run_step .between [token] ?_ rest
  have letter := not_letter (x := x) (c := c) (by
    simp only [List.mem_cons, List.not_mem_nil, or_false] at sign
    rcases sign with rfl | rfl | rfl <;> decide)
  simp only [List.mem_cons, List.not_mem_nil, or_false] at sign
  rcases sign with rfl | rfl | rfl <;> simp [step, start, blanks, letter, h]

theorem run_name {cs read : List Char} {c : Char} (word : cs.all x.wordChar = true)
    (ends : x.wordChar c = false) (rest : List Char) :
    x.run (.name read) (cs ++ c :: rest) =
      (x.run .between (c :: rest)).map (x.word (cs.reverse ++ read) :: ·) := by
  induction cs generalizing read with
  | nil => exact run_after (by simp [step, ends]) rest
  | cons d cs ih =>
    obtain ⟨hd, hcs⟩ := Bool.and_eq_true _ _ ▸ (List.all_cons ▸ word)
    rw [List.cons_append, run_silent (.name (d :: read)) (by simp [step, hd]), ih hcs,
      List.reverse_cons, List.append_assoc]
    rfl

theorem run_identifier {name : String} {c : Char} (identifier : x.Identifier name)
    (ends : x.wordChar c = false) (rest : List Char) :
    x.run .between (name.toList ++ c :: rest) =
      (x.run .between (c :: rest)).map (.identifier name :: ·) := by
  obtain ⟨⟨d, cs, chars, letter, word⟩, free⟩ := identifier
  have plain {e : Char} (he : e ∈ signs) : d ≠ e := by
    rintro rfl
    rw [not_letter he] at letter
    cases letter
  have begins : x.step .between d = some ([], .name [d]) := by
    have blank : d ∉ blanks := by
      simp only [blanks, List.mem_cons, List.not_mem_nil, or_false]
      rintro (h | h | h | h) <;> exact plain (by decide) h
    have sign : d ∉ ['|', '=', '!'] := by
      simp only [List.mem_cons, List.not_mem_nil, or_false]
      rintro (h | h | h) <;> exact plain (by decide) h
    rw [step, start, if_neg blank, if_neg (plain (by decide)), if_neg (plain (by decide)),
      if_neg (plain (by decide)), if_neg sign, if_pos letter]
  have named : x.word (cs.reverse ++ [d]) = .identifier name := by
    have whole : String.ofList (cs.reverse ++ [d]).reverse = name := by
      simp [← chars]
    rw [Lexis.word, whole, free]
    rfl
  rw [chars, List.cons_append, run_silent (.name [d]) begins, run_name word ends, named]

theorem run_quoted (value : List Char) (read rest : List Char) :
    x.run (.quoted read) (value.flatMap escape ++ '"' :: rest) =
      if value.all inLiteral then
        (x.run .between rest).map (.text (.ofList (read.reverse ++ value)) :: ·)
      else none := by
  induction value generalizing read with
  | nil =>
    rw [List.flatMap_nil, List.nil_append, run_step .between _ (by rw [step, if_pos rfl])]
    simp
  | cons c cs ih =>
    rw [List.flatMap_cons, List.append_assoc]
    have moved : (c :: read).reverse ++ cs = read.reverse ++ c :: cs := by simp
    have held {d : Char} (hd : d = '\\' ∨ d = '"') (rest : List Char) :
        x.run (.quoted read) ('\\' :: d :: rest) = x.run (.quoted (d :: read)) rest := by
      rw [run_silent (.escape read []) (by simp [step])]
      refine run_silent _ ?_ rest
      rcases hd with rfl | rfl <;> rfl
    by_cases escaped : c = '\\' ∨ c = '"'
    · have text : escape c = ['\\', c] := by rcases escaped with rfl | rfl <;> rfl
      have inside : inLiteral c = true := by rcases escaped with rfl | rfl <;> rfl
      rw [text, List.cons_append, List.cons_append, List.nil_append, held escaped, ih, moved,
        List.all_cons, inside, Bool.true_and]
    · obtain ⟨slash, quote⟩ := not_or.mp escaped
      have text : escape c = [c] := by rw [escape, if_neg slash, if_neg quote]
      rw [text, List.cons_append, List.nil_append, List.all_cons]
      cases inside : inLiteral c with
      | true =>
        rw [run_silent (.quoted (c :: read)) (by simp [step, slash, quote, inside]), ih,
          moved, Bool.true_and]
      | false =>
        rw [run_cons, show x.step (.quoted read) c = none by simp [step, slash, quote, inside]]
        rfl

theorem run_literal (value : String) (rest : List Char) :
    x.run .between (quoted value ++ rest) =
      if Readable value then (x.run .between rest).map (.text value :: ·) else none := by
  rw [quoted, List.cons_append, run_silent (.quoted []) (by simp [step, start, blanks]),
    List.append_assoc, List.singleton_append, run_quoted]
  simp [Readable]

theorem run_sign {c : Char} (sign : c ∈ ['|', '=', '!']) (rest : List Char) :
    x.run .between (c :: rest) = x.run (.sign c) rest := by
  refine run_silent _ ?_ rest
  simp only [List.mem_cons, List.not_mem_nil, or_false] at sign
  rcases sign with rfl | rfl | rfl <;> simp [step, start, blanks]

theorem run_pair {c d : Char} {token : Token} (sign : c ∈ ['|', '=', '!'])
    (h : pair c d = some token) (rest : List Char) :
    x.run .between (c :: d :: rest) = (x.run .between rest).map (token :: ·) := by
  rw [run_sign sign, run_step .between [token] (by simp only [step, h])]
  rfl

theorem run_alone {c d : Char} (token : Token) (sign : c ∈ ['|', '=', '!'])
    (unpaired : pair c d = none) (h : alone c = some token) (rest : List Char) :
    x.run .between (c :: d :: rest) = (x.run .between (d :: rest)).map (token :: ·) := by
  rw [run_sign sign]
  exact run_after (by simp only [step, unpaired, h, Option.bind_some]) rest

theorem run_operator (op : Operator) (rest : List Char) :
    x.run .between (op.text ++ '"' :: rest) =
      (x.run .between ('"' :: rest)).map (.operator op :: ·) := by
  cases op with
  | eq => exact run_alone _ (by decide) rfl rfl rest
  | neq => exact run_pair (by decide) rfl ('"' :: rest)
  | re => exact run_pair (by decide) rfl ('"' :: rest)
  | nre => exact run_pair (by decide) rfl ('"' :: rest)

theorem run_lineOperator (op : LineOperator) (rest : List Char) :
    x.run .between (op.text ++ rest) = (x.run .between rest).map (op.token :: ·) := by
  cases op <;> exact run_pair (by decide) rfl rest

theorem head_operator (op : Operator) :
    ∃ c rest, op.text = c :: rest ∧ c ∈ signs := by
  cases op <;> exact ⟨_, _, rfl, by decide⟩

/-- A comparison is read whole if its literal is. -/
theorem run_comparison {name : String} (identifier : x.Identifier name) (op : Operator)
    (value : String) (rest : List Char) :
    x.run .between (name.toList ++ (op.text ++ (quoted value ++ rest))) =
      if Readable value then
        (x.run .between rest).map ([.identifier name, .operator op, .text value] ++ ·)
      else none := by
  obtain ⟨c, cs, chars, sign⟩ := head_operator op
  rw [chars, List.cons_append, run_identifier identifier (not_wordChar sign), ← List.cons_append,
    ← chars]
  have literal := run_operator (x := x) op (value.toList.flatMap escape ++ ['"'] ++ rest)
  have joined : '"' :: (value.toList.flatMap escape ++ ['"'] ++ rest) = quoted value ++ rest := rfl
  rw [joined] at literal
  rw [literal, run_literal]
  split <;> simp [Function.comp_def]

theorem run_matcher {m : Matcher} (identifier : x.Identifier m.name) (rest : List Char) :
    x.run .between (m.render ++ rest) =
      if Readable m.value then (x.run .between rest).map (m.tokens ++ ·) else none := by
  rw [Matcher.render, List.append_assoc, List.append_assoc, run_comparison identifier]
  rfl

theorem run_stage {stage : Stage} (identifiers : ∀ name ∈ stage.names, x.Identifier name)
    (rest : List Char) :
    x.run .between (' ' :: (stage.render ++ rest)) =
      if Readable stage.value then (x.run .between rest).map (stage.tokens ++ ·) else none := by
  rw [run_space]
  cases stage with
  | line op value =>
    rw [Stage.render, List.append_assoc, run_lineOperator, List.cons_append, run_space, run_literal,
      map_if, Option.map_map]
    rfl
  | label name op value =>
    have identifier := identifiers name (List.mem_singleton_self name)
    simp only [Stage.render, List.cons_append, List.append_assoc]
    rw [run_alone .pipe (by decide) rfl rfl, run_space, run_comparison identifier, map_if,
      Option.map_map]
    rfl

theorem run_matchers {matchers : List Matcher}
    (identifiers : ∀ m ∈ matchers, x.Identifier m.name) (rest : List Char) :
    x.run .between (renderMatchers matchers ++ rest) =
      if ∀ m ∈ matchers, Readable m.value then
        (x.run .between rest).map (matcherTokens matchers ++ ·)
      else none := by
  induction matchers with
  | nil => simp [renderMatchers, matcherTokens]
  | cons m matchers ih =>
    have first := run_matcher (identifiers m (List.mem_cons_self ..))
    have others := ih fun m' h' => identifiers m' (List.mem_cons_of_mem m h')
    simp only [List.forall_mem_cons]
    cases matchers with
    | nil =>
      rw [renderMatchers, first, matcherTokens]
      simp
    | cons m' matchers =>
      rw [renderMatchers, List.append_assoc, first, List.cons_append,
        run_single .comma (by decide) rfl, others, matcherTokens]
      simp [map_if, if_if, Function.comp_def]

theorem run_stages {stages : List Stage}
    (identifiers : ∀ stage ∈ stages, ∀ name ∈ stage.names, x.Identifier name) :
    x.run .between (stages.flatMap fun s => ' ' :: s.render) =
      if ∀ stage ∈ stages, Readable stage.value then some (stages.flatMap Stage.tokens)
      else none := by
  induction stages with
  | nil => simp [run, finish]
  | cons stage stages ih =>
    have first := run_stage (identifiers stage (List.mem_cons_self ..))
    have others := ih fun s h => identifiers s (List.mem_cons_of_mem stage h)
    rw [List.flatMap_cons, List.cons_append, first, others, map_if, if_if]
    simp only [List.forall_mem_cons]
    rfl

end Lexis

theorem parseMatchers_tokens {matchers : List Matcher} (some_ : matchers ≠ [])
    (rest : List Token) :
    parseMatchers (matcherTokens matchers ++ .closeBrace :: rest) = some (matchers, rest) := by
  induction matchers with
  | nil => exact absurd rfl some_
  | cons m matchers ih =>
    cases matchers with
    | nil => rfl
    | cons n matchers =>
      have others := ih (List.cons_ne_nil n matchers)
      show (parseMatchers (matcherTokens (n :: matchers) ++ .closeBrace :: rest)).map _ = _
      rw [others]
      rfl

theorem parseSelector_tokens (matchers : List Matcher) (rest : List Token) :
    parseSelector (matcherTokens matchers ++ .closeBrace :: rest) = some (matchers, rest) := by
  cases matchers with
  | nil => rfl
  | cons m matchers =>
    have read := parseMatchers_tokens (List.cons_ne_nil m matchers) rest
    cases matchers <;> exact read

theorem parseStages_tokens (stages : List Stage) :
    parseStages (stages.flatMap Stage.tokens) = some stages := by
  induction stages with
  | nil => rfl
  | cons stage stages ih =>
    rw [List.flatMap_cons]
    cases stage with
    | line op value =>
      cases op <;>
        · show (parseStages (stages.flatMap Stage.tokens)).map _ = _
          rw [ih]
          rfl
    | label name op value =>
      show (parseStages (stages.flatMap Stage.tokens)).map _ = _
      rw [ih]
      rfl

theorem parse_tokens (q : Query) : parse q.tokens = some q := by
  show (parseSelector (matcherTokens q.matchers ++ _)).bind _ = _
  rw [parseSelector_tokens, Option.bind_some, parseStages_tokens]
  rfl

namespace Lexis

variable {x : Lexis} {q : Query}

theorem lex_render (identifiers : ∀ name ∈ q.names, x.Identifier name) :
    x.lex (.ofList q.render) =
      if ∀ value ∈ q.values, Readable value then some q.tokens else none := by
  have matcherNames : ∀ m ∈ q.matchers, x.Identifier m.name := fun m hm =>
    identifiers _ (List.mem_append_left _ (List.mem_map_of_mem hm))
  have stageNames : ∀ stage ∈ q.stages, ∀ name ∈ stage.names, x.Identifier name :=
    fun stage hs name hn =>
      identifiers _ (List.mem_append_right _ (List.mem_flatMap.mpr ⟨stage, hs, hn⟩))
  have split_ : (∀ value ∈ q.values, Readable value) ↔
      (∀ m ∈ q.matchers, Readable m.value) ∧ ∀ stage ∈ q.stages, Readable stage.value := by
    simp only [Query.values, List.mem_append, or_imp, forall_and, List.forall_mem_map]
  rw [lex, String.toList_ofList, Query.render, run_single .openBrace (by decide) rfl,
    run_matchers matcherNames, run_single .closeBrace (by decide) rfl,
    run_stages stageNames]
  simp only [map_if, if_if, split_]
  rfl

/-- A query whose names are identifiers is read back exactly when its literals can be read, and
nothing is read otherwise. -/
theorem read_render (identifiers : ∀ name ∈ q.names, x.Identifier name) :
    x.read (.ofList q.render) = if ∀ value ∈ q.values, Readable value then some q else none := by
  rw [read, lex_render identifiers]
  split
  · exact parse_tokens q
  · rfl

/-! ### Names that are read -/

/-- A word that is being read begins with a letter and has only characters of a word. -/
def Begun (x : Lexis) : Mode → Prop
  | .name read =>
    ∃ c cs, read.reverse = c :: cs ∧ x.letter c = true ∧ cs.all x.wordChar = true
  | _ => True

theorem identifier_of_word {read : List Char} (begun : Begun x (.name read)) {name : String}
    (h : .identifier name = x.word read) : x.Identifier name := by
  unfold word at h
  split at h
  · cases h
  · rename_i free
    cases h
    refine ⟨?_, by simpa using free⟩
    rw [String.toList_ofList]
    exact begun

theorem begun_start {c : Char} {tokens : List Token} {next : Mode}
    (h : x.start c = some (tokens, next)) :
    Begun x next ∧ ∀ name, .identifier name ∉ tokens := by
  have silent {mode : Mode} (h : some (([] : List Token), mode) = some (tokens, next))
      (begun : Begun x mode) :
      Begun x next ∧ ∀ name, .identifier name ∉ tokens := by
    cases h
    exact ⟨begun, fun name => List.not_mem_nil⟩
  unfold start at h
  split_ifs at h with _ _ _ _ _ letter
  · exact silent h trivial
  · exact silent h trivial
  · exact silent h trivial
  · exact silent h trivial
  · exact silent h trivial
  · exact silent h ⟨c, [], rfl, letter, rfl⟩
  · obtain ⟨token, ht, same⟩ := Option.map_eq_some_iff.mp h
    cases same
    refine ⟨trivial, fun name hn => ?_⟩
    obtain rfl := List.mem_singleton.mp hn
    unfold single at ht
    split at ht <;> cases ht

theorem begun_after {token : Token} {c : Char} {tokens : List Token} {next : Mode}
    (h : (x.start c).map (after token) = some (tokens, next)) :
    Begun x next ∧ ∀ name, .identifier name ∈ tokens → .identifier name = token := by
  obtain ⟨⟨others, mode⟩, hs, same⟩ := Option.map_eq_some_iff.mp h
  cases same
  obtain ⟨begun, none_⟩ := begun_start hs
  refine ⟨begun, fun name hn => ?_⟩
  rcases List.mem_cons.mp hn with first | other
  · exact first
  · exact absurd other (none_ name)

theorem begun_step {mode next : Mode} {c : Char} {tokens : List Token} (begun : Begun x mode)
    (h : x.step mode c = some (tokens, next)) :
    Begun x next ∧ ∀ name, .identifier name ∈ tokens → x.Identifier name := by
  have silent {mode : Mode} (h : some (([] : List Token), mode) = some (tokens, next))
      (begun : Begun x mode) :
      Begun x next ∧ ∀ name, .identifier name ∈ tokens → x.Identifier name := by
    cases h
    exact ⟨begun, fun name hn => absurd hn List.not_mem_nil⟩
  have text {value : String} (h : some ([Token.text value], Mode.between) = some (tokens, next)) :
      Begun x next ∧ ∀ name, .identifier name ∈ tokens → x.Identifier name := by
    cases h
    exact ⟨trivial, fun name hn => by cases List.mem_singleton.mp hn⟩
  cases mode with
  | between =>
    obtain ⟨begun, none_⟩ := begun_start h
    exact ⟨begun, fun name hn => absurd hn (none_ name)⟩
  | name read =>
    simp only [step] at h
    split at h
    · rename_i word
      obtain ⟨d, cs, chars, letter, words⟩ := begun
      refine silent h ⟨d, cs ++ [c], ?_, letter, ?_⟩
      · rw [List.reverse_cons, chars, List.cons_append]
      · rw [List.all_append, words, List.all_cons, word]
        rfl
    · obtain ⟨next_, word⟩ := begun_after h
      exact ⟨next_, fun name hn => identifier_of_word begun (word name hn)⟩
  | quoted read =>
    simp only [step] at h
    split_ifs at h
    · exact text h
    · exact silent h trivial
    · exact silent h trivial
  | escape read code =>
    simp only [step] at h
    split at h
    · exact silent h trivial
    · exact silent h trivial
    · cases h
  | raw read =>
    simp only [step] at h
    split_ifs at h
    · exact text h
    · exact silent h trivial
  | comment =>
    simp only [step] at h
    refine silent h ?_
    split <;> trivial
  | sign s =>
    simp only [step] at h
    split at h
    · rename_i token paired
      cases h
      refine ⟨trivial, fun name hn => ?_⟩
      obtain rfl := List.mem_singleton.mp hn
      unfold pair at paired
      split at paired <;> cases paired
    · obtain ⟨token, ht, ha⟩ := Option.bind_eq_some_iff.mp h
      obtain ⟨next_, first⟩ := begun_after ha
      refine ⟨next_, fun name hn => ?_⟩
      obtain rfl := first name hn
      unfold alone at ht
      split at ht <;> cases ht

theorem identifier_of_run {text : List Char} (mode : Mode) {tokens : List Token}
    (begun : Begun x mode) (h : x.run mode text = some tokens) :
    ∀ name, .identifier name ∈ tokens → x.Identifier name := by
  induction text generalizing mode tokens with
  | nil =>
    intro name hn
    rw [run] at h
    cases mode with
    | name read =>
      cases h
      exact identifier_of_word begun (List.mem_singleton.mp hn)
    | sign s =>
      obtain ⟨token, ht, same⟩ := Option.map_eq_some_iff.mp h
      subst same
      obtain rfl := List.mem_singleton.mp hn
      unfold alone at ht
      split at ht <;> cases ht
    | between | comment =>
      cases h
      exact absurd hn List.not_mem_nil
    | quoted | escape | raw => cases h
  | cons c text ih =>
    obtain ⟨⟨first, next⟩, hs, hr⟩ := Option.bind_eq_some_iff.mp (run_cons (x := x) mode c text ▸ h)
    obtain ⟨others, ho, same⟩ := Option.map_eq_some_iff.mp hr
    subst same
    obtain ⟨next_, words⟩ := begun_step begun hs
    intro name hn
    rcases List.mem_append.mp hn with here | later
    · exact words name here
    · exact ih next next_ ho name later

end Lexis

theorem names_of_parseMatchers {tokens rest : List Token} {matchers : List Matcher}
    (h : parseMatchers tokens = some (matchers, rest)) :
    (∀ m ∈ matchers, .identifier m.name ∈ tokens) ∧ rest ⊆ tokens := by
  induction tokens using parseMatchers.induct generalizing matchers with
  | case1 name op value tokens ih =>
    rw [parseMatchers] at h
    obtain ⟨⟨others, left⟩, hp, same⟩ := Option.map_eq_some_iff.mp h
    cases same
    obtain ⟨names, kept⟩ := ih hp
    have deeper {token : Token} (ht : token ∈ tokens) :
        token ∈ .identifier name :: .operator op :: .text value :: .comma :: tokens := by
      simp [ht]
    refine ⟨fun m hm => ?_, fun token ht => deeper (kept ht)⟩
    rcases List.mem_cons.mp hm with rfl | hm
    · exact List.mem_cons_self ..
    · exact deeper (names m hm)
  | case2 name op value tokens =>
    rw [parseMatchers] at h
    cases h
    refine ⟨fun m hm => ?_, fun token ht => by simp [ht]⟩
    obtain rfl := List.mem_singleton.mp hm
    exact List.mem_cons_self ..
  | case3 tokens other last =>
    rw [parseMatchers.eq_3 tokens other last] at h
    cases h

theorem names_of_parseSelector {tokens rest : List Token} {matchers : List Matcher}
    (h : parseSelector tokens = some (matchers, rest)) :
    (∀ m ∈ matchers, .identifier m.name ∈ tokens) ∧ rest ⊆ tokens := by
  unfold parseSelector at h
  split at h
  · cases h
    exact ⟨fun m hm => absurd hm List.not_mem_nil, fun token ht => List.mem_cons_of_mem _ ht⟩
  · exact names_of_parseMatchers h

theorem names_of_parseStages {tokens : List Token} {stages : List Stage}
    (h : parseStages tokens = some stages) :
    ∀ stage ∈ stages, ∀ name ∈ stage.names, .identifier name ∈ tokens := by
  induction tokens using parseStages.induct generalizing stages with
  | case1 =>
    cases h
    exact fun stage hs => absurd hs List.not_mem_nil
  | case2 value tokens ih | case3 value tokens ih | case4 value tokens ih | case5 value tokens ih =>
    rw [parseStages] at h
    obtain ⟨others, hp, rfl⟩ := Option.map_eq_some_iff.mp h
    intro stage hs name hn
    rcases List.mem_cons.mp hs with rfl | hs
    · exact absurd hn List.not_mem_nil
    · exact List.mem_cons_of_mem _ (List.mem_cons_of_mem _ (ih hp stage hs name hn))
  | case6 first op value tokens ih =>
    rw [parseStages] at h
    obtain ⟨others, hp, rfl⟩ := Option.map_eq_some_iff.mp h
    intro stage hs name hn
    rcases List.mem_cons.mp hs with rfl | hs
    · obtain rfl := List.mem_singleton.mp hn
      simp
    · have later := ih hp stage hs name hn
      simp [later]
  | case7 tokens h₁ h₂ h₃ h₄ h₅ h₆ =>
    rw [parseStages.eq_7 tokens h₁ h₂ h₃ h₄ h₅ h₆] at h
    cases h

/-- Whatever text was read: its names are identifiers. -/
theorem Lexis.names_of_read {x : Lexis} {q : Query} {text : String} (h : x.read text = some q) :
    ∀ name ∈ q.names, x.Identifier name := by
  obtain ⟨tokens, hl, hp⟩ := Option.bind_eq_some_iff.mp h
  have words := identifier_of_run (x := x) .between trivial hl
  unfold parse at hp
  split at hp
  · rename_i rest
    obtain ⟨⟨matchers, left⟩, hm, hs⟩ := Option.bind_eq_some_iff.mp hp
    obtain ⟨stages, ht, rfl⟩ := Option.map_eq_some_iff.mp hs
    obtain ⟨names, kept⟩ := names_of_parseSelector hm
    intro name hn
    rcases List.mem_append.mp hn with hn | hn
    · obtain ⟨m, hm, rfl⟩ := List.mem_map.mp hn
      exact words _ (List.mem_cons_of_mem _ (names m hm))
    · obtain ⟨stage, hs', hn⟩ := List.mem_flatMap.mp hn
      have found := names_of_parseStages ht stage hs' name hn
      exact words _ (List.mem_cons_of_mem _ (kept found))
  · cases hp

end LogQL
