import Dataflow.Expr.Parser

/-!
# The grammar of expressions

`Derives p input e rest` says that the grammar derives the tree `e` from the front of `input` as a
phrase `p`, and that `rest` is left. A whole list of lexemes is derived where nothing is left. The
rules speak of tokens only and know nothing of how the parser goes about it: the operators of one
level are grouped to the left by a rule that is recursive on its left, and no limit keeps trees
shallow.

* `Derives.split`: a derivation depends only on what it reads, not on what is left
* `Derives.starts`: the tokens with which each phrase can start
-/

namespace Dataflow

/-- The token of a prefix operator. -/
def UnaryOp.token : UnaryOp → Token
  | .negate => .minus
  | .not => .bang

namespace BinaryOp

/-- The token of an operator. -/
def token : BinaryOp → Token
  | .mul => .star
  | .div => .slash
  | .rem => .percent
  | .add => .plus
  | .sub => .minus
  | .lt => .less
  | .le => .lessEq
  | .gt => .greater
  | .ge => .greaterEq
  | .eq => .equal
  | .ne => .notEqual
  | .and => .both
  | .or => .either

/-- The level of an operator; the loosest are at level zero. -/
def level : BinaryOp → Nat
  | .or => 0
  | .and => 1
  | .eq => 2
  | .ne => 2
  | .lt => 3
  | .le => 3
  | .gt => 3
  | .ge => 3
  | .add => 4
  | .sub => 4
  | .mul => 5
  | .div => 5
  | .rem => 5

/-- The number of levels. -/
def levels : Nat := 6

theorem level_lt_levels (op : BinaryOp) : op.level < levels := by
  cases op <;> decide

theorem token_injective {op op' : BinaryOp} (h : op.token = op'.token) : op = op' := by
  cases op <;> cases op' <;> first | rfl | exact nomatch h

end BinaryOp

/-- The tree of a token that is an atom on its own. -/
def Token.leaf? : Token → Option Expr
  | .number x => some (.literal (Json.ofFloat x))
  | .text s => some (.literal (.string s))
  | .trueWord => some (.literal (.bool true))
  | .falseWord => some (.literal (.bool false))
  | .nullWord => some (.literal .null)
  | .name id => some (.name id)
  | _ => none

namespace Expr

/-! ## The rules -/

/-- What can be derived. -/
inductive Phrase where
  | expression
  /-- Operands of prefix operators, joined by operators of this level and tighter ones. -/
  | chain (level : Nat)
  | prefixed
  /-- An atom with the members selected from it. -/
  | selection
  | atom
  /-- Items separated by commas, or nothing. -/
  | list
  | items
deriving DecidableEq

/-- The grammar. A list of items derives the array of them. -/
inductive Derives : Phrase → List Lexeme → Expr → List Lexeme → Prop where
  | chain {input rest : List Lexeme} {e : Expr} (h : Derives (.chain 0) input e rest) :
      Derives .expression input e rest
  | conditional {input yesInput noInput rest : List Lexeme} {test yes no : Expr} {q c : Lexeme}
      (htest : Derives (.chain 0) input test (q :: yesInput)) (hq : q.token = .question)
      (hyes : Derives .expression yesInput yes (c :: noInput)) (hc : c.token = .colon)
      (hno : Derives .expression noInput no rest) :
      Derives .expression input (.conditional test yes no) rest
  | tighter {level : Nat} {input rest : List Lexeme} {e : Expr} (hlevel : level < BinaryOp.levels)
      (h : Derives (.chain (level + 1)) input e rest) : Derives (.chain level) input e rest
  | operation {op : BinaryOp} {input rightInput rest : List Lexeme} {left right : Expr} {l : Lexeme}
      (hleft : Derives (.chain op.level) input left (l :: rightInput)) (hl : l.token = op.token)
      (hright : Derives (.chain (op.level + 1)) rightInput right rest) :
      Derives (.chain op.level) input (.binary op left right) rest
  | operand {input rest : List Lexeme} {e : Expr} (h : Derives .prefixed input e rest) :
      Derives (.chain BinaryOp.levels) input e rest
  | prefixed {op : UnaryOp} {l : Lexeme} {input rest : List Lexeme} {e : Expr}
      (hl : l.token = op.token) (h : Derives .prefixed input e rest) :
      Derives .prefixed (l :: input) (.unary op e) rest
  | selection {input rest : List Lexeme} {e : Expr} (h : Derives .selection input e rest) :
      Derives .prefixed input e rest
  | atom {input rest : List Lexeme} {e : Expr} (h : Derives .atom input e rest) :
      Derives .selection input e rest
  | member {input rest : List Lexeme} {object : Expr} {dot l : Lexeme} {id : String}
      (h : Derives .selection input object (dot :: l :: rest)) (hdot : dot.token = .dot)
      (hl : l.token = .name id) :
      Derives .selection input (.member object (.literal (.string id))) rest
  | index {input propertyInput rest : List Lexeme} {object property : Expr} {o c : Lexeme}
      (h : Derives .selection input object (o :: propertyInput)) (ho : o.token = .openBracket)
      (hproperty : Derives .expression propertyInput property (c :: rest))
      (hc : c.token = .closeBracket) : Derives .selection input (.member object property) rest
  | leaf {l : Lexeme} {rest : List Lexeme} {e : Expr} (h : l.token.leaf? = some e) :
      Derives .atom (l :: rest) e rest
  | group {o c : Lexeme} {input rest : List Lexeme} {e : Expr} (ho : o.token = .openParen)
      (h : Derives .expression input e (c :: rest)) (hc : c.token = .closeParen) :
      Derives .atom (o :: input) e rest
  | array {o c : Lexeme} {input rest : List Lexeme} {items : List Expr}
      (ho : o.token = .openBracket) (h : Derives .list input (.array items) (c :: rest))
      (hc : c.token = .closeBracket) : Derives .atom (o :: input) (.array items) rest
  | call {l o c : Lexeme} {input rest : List Lexeme} {id : String} {arguments : List Expr}
      (hl : l.token = .name id) (ho : o.token = .openParen)
      (h : Derives .list input (.array arguments) (c :: rest)) (hc : c.token = .closeParen) :
      Derives .atom (l :: o :: input) (.call id arguments l.start) rest
  | nothing {rest : List Lexeme} : Derives .list rest (.array []) rest
  | something {input rest : List Lexeme} {items : List Expr}
      (h : Derives .items input (.array items) rest) : Derives .list input (.array items) rest
  | last {input rest : List Lexeme} {e : Expr} (h : Derives .expression input e rest) :
      Derives .items input (.array [e]) rest
  | more {input itemsInput rest : List Lexeme} {e : Expr} {items : List Expr} {c : Lexeme}
      (h : Derives .expression input e (c :: itemsInput)) (hc : c.token = .comma)
      (hitems : Derives .items itemsInput (.array items) rest) :
      Derives .items input (.array (e :: items)) rest

/-! ## The way up from an operand -/

/-- An operand is a chain of every level. -/
theorem Derives.chain_of_prefixed {input rest : List Lexeme} {e : Expr} {k : Nat}
    (h : Derives .prefixed input e rest) (hk : k ≤ BinaryOp.levels) :
    Derives (.chain k) input e rest := by
  -- Induction on the levels that are tighter.
  obtain ⟨n, hn⟩ := Nat.exists_eq_add_of_le hk
  induction n generalizing k with
  | zero =>
    obtain rfl : BinaryOp.levels = k := hn
    exact .operand h
  | succ n ih =>
    have hlt : k < BinaryOp.levels := by omega
    exact .tighter hlt (ih hlt (by omega))

/-- An atom is an expression. -/
theorem Derives.expression_of_atom {input rest : List Lexeme} {e : Expr}
    (h : Derives .atom input e rest) : Derives .expression input e rest :=
  .chain (chain_of_prefixed (.selection (.atom h)) (Nat.zero_le _))

/-! ## What a derivation depends on -/

/-- A derivation reads an initial part of the input, and derives the same from it whatever
follows. -/
theorem Derives.split {p : Phrase} {input rest : List Lexeme} {e : Expr}
    (h : Derives p input e rest) :
    ∃ read, input = read ++ rest ∧ ∀ other, Derives p (read ++ other) e other := by
  -- What a phrase reads is what its parts read, with the tokens of the rule between them.
  induction h with
  | chain _ ih =>
    obtain ⟨read, rfl, h⟩ := ih
    exact ⟨read, rfl, fun other => .chain (h other)⟩
  | @conditional _ _ _ _ _ _ _ q c _ hq _ hc _ ihtest ihyes ihno =>
    obtain ⟨testRead, rfl, htest⟩ := ihtest
    obtain ⟨yesRead, rfl, hyes⟩ := ihyes
    obtain ⟨noRead, rfl, hno⟩ := ihno
    refine ⟨testRead ++ q :: (yesRead ++ c :: noRead), by simp, fun other => ?_⟩
    simp only [List.append_assoc, List.cons_append]
    exact .conditional (htest _) hq (hyes _) hc (hno other)
  | tighter hlevel _ ih =>
    obtain ⟨read, rfl, h⟩ := ih
    exact ⟨read, rfl, fun other => .tighter hlevel (h other)⟩
  | @operation _ _ _ _ _ _ l _ hl _ ihleft ihright =>
    obtain ⟨leftRead, rfl, hleft⟩ := ihleft
    obtain ⟨rightRead, rfl, hright⟩ := ihright
    refine ⟨leftRead ++ l :: rightRead, by simp, fun other => ?_⟩
    simp only [List.append_assoc, List.cons_append]
    exact .operation (hleft _) hl (hright other)
  | operand _ ih =>
    obtain ⟨read, rfl, h⟩ := ih
    exact ⟨read, rfl, fun other => .operand (h other)⟩
  | @prefixed _ l _ _ _ hl _ ih =>
    obtain ⟨read, rfl, h⟩ := ih
    exact ⟨l :: read, rfl, fun other => .prefixed hl (h other)⟩
  | selection _ ih =>
    obtain ⟨read, rfl, h⟩ := ih
    exact ⟨read, rfl, fun other => .selection (h other)⟩
  | atom _ ih =>
    obtain ⟨read, rfl, h⟩ := ih
    exact ⟨read, rfl, fun other => .atom (h other)⟩
  | @member _ _ _ dot l _ _ hdot hl ih =>
    obtain ⟨read, rfl, h⟩ := ih
    refine ⟨read ++ [dot, l], by simp, fun other => ?_⟩
    simp only [List.append_assoc, List.cons_append, List.nil_append]
    exact .member (h _) hdot hl
  | @index _ _ _ _ _ o c _ ho _ hc ih ihproperty =>
    obtain ⟨read, rfl, h⟩ := ih
    obtain ⟨propertyRead, rfl, hproperty⟩ := ihproperty
    refine ⟨read ++ o :: (propertyRead ++ [c]), by simp, fun other => ?_⟩
    simp only [List.append_assoc, List.cons_append, List.nil_append]
    exact .index (h _) ho (hproperty _) hc
  | @leaf l _ _ h => exact ⟨[l], rfl, fun other => .leaf h⟩
  | @group o c _ _ _ ho _ hc ih =>
    obtain ⟨read, rfl, h⟩ := ih
    refine ⟨o :: (read ++ [c]), by simp, fun other => ?_⟩
    simp only [List.append_assoc, List.cons_append, List.nil_append]
    exact .group ho (h _) hc
  | @array o c _ _ _ ho _ hc ih =>
    obtain ⟨read, rfl, h⟩ := ih
    refine ⟨o :: (read ++ [c]), by simp, fun other => ?_⟩
    simp only [List.append_assoc, List.cons_append, List.nil_append]
    exact .array ho (h _) hc
  | @call l o c _ _ _ _ hl ho _ hc ih =>
    obtain ⟨read, rfl, h⟩ := ih
    refine ⟨l :: o :: (read ++ [c]), by simp, fun other => ?_⟩
    simp only [List.append_assoc, List.cons_append, List.nil_append]
    exact .call hl ho (h _) hc
  | nothing => exact ⟨[], rfl, fun other => .nothing⟩
  | something _ ih =>
    obtain ⟨read, rfl, h⟩ := ih
    exact ⟨read, rfl, fun other => .something (h other)⟩
  | last _ ih =>
    obtain ⟨read, rfl, h⟩ := ih
    exact ⟨read, rfl, fun other => .last (h other)⟩
  | @more _ _ _ _ _ c _ hc _ ih ihitems =>
    obtain ⟨read, rfl, h⟩ := ih
    obtain ⟨itemsRead, rfl, hitems⟩ := ihitems
    refine ⟨read ++ c :: itemsRead, by simp, fun other => ?_⟩
    simp only [List.append_assoc, List.cons_append]
    exact .more (h _) hc (hitems other)

/-- Lists of items derive arrays. -/
theorem Derives.exists_array {p : Phrase} {input rest : List Lexeme} {e : Expr}
    (h : Derives p input e rest) (hp : p = .list ∨ p = .items) : ∃ items, e = .array items := by
  cases h
  case nothing => exact ⟨_, rfl⟩
  case something => exact ⟨_, rfl⟩
  case last => exact ⟨_, rfl⟩
  case more => exact ⟨_, rfl⟩
  all_goals simp at hp

theorem exists_of_tokens_cons {l : Lexeme} {rest input : List Lexeme}
    (h : input.map Lexeme.token = (l :: rest).map Lexeme.token) :
    ∃ l' rest', input = l' :: rest' ∧ l'.token = l.token ∧
      rest'.map Lexeme.token = rest.map Lexeme.token :=
  List.map_eq_cons_iff.mp h

/-- A derivation goes by tokens: lexemes with the same tokens derive the same phrases, though the
calls in them may stand at other places. -/
theorem Derives.of_tokens {p : Phrase} {input rest input' : List Lexeme} {e : Expr}
    (h : Derives p input e rest) (heq : input'.map Lexeme.token = input.map Lexeme.token) :
    ∃ e' rest', rest'.map Lexeme.token = rest.map Lexeme.token ∧ Derives p input' e' rest' := by
  induction h generalizing input' with
  | chain _ ih =>
    obtain ⟨_, _, hrest, h⟩ := ih heq
    exact ⟨_, _, hrest, .chain h⟩
  | conditional _ hq _ hc _ ihtest ihyes ihno =>
    obtain ⟨_, _, hrest, htest⟩ := ihtest heq
    obtain ⟨q', _, rfl, hq', hrest⟩ := exists_of_tokens_cons hrest
    obtain ⟨_, _, hrest, hyes⟩ := ihyes hrest
    obtain ⟨c', _, rfl, hc', hrest⟩ := exists_of_tokens_cons hrest
    obtain ⟨_, _, hrest, hno⟩ := ihno hrest
    exact ⟨_, _, hrest, .conditional htest (hq'.trans hq) hyes (hc'.trans hc) hno⟩
  | tighter hlevel _ ih =>
    obtain ⟨_, _, hrest, h⟩ := ih heq
    exact ⟨_, _, hrest, .tighter hlevel h⟩
  | operation _ hl _ ihleft ihright =>
    obtain ⟨_, _, hrest, hleft⟩ := ihleft heq
    obtain ⟨l', _, rfl, hl', hrest⟩ := exists_of_tokens_cons hrest
    obtain ⟨_, _, hrest, hright⟩ := ihright hrest
    exact ⟨_, _, hrest, .operation hleft (hl'.trans hl) hright⟩
  | operand _ ih =>
    obtain ⟨_, _, hrest, h⟩ := ih heq
    exact ⟨_, _, hrest, .operand h⟩
  | prefixed hl _ ih =>
    obtain ⟨l', _, rfl, hl', hrest⟩ := exists_of_tokens_cons heq
    obtain ⟨_, _, hrest, h⟩ := ih hrest
    exact ⟨_, _, hrest, .prefixed (hl'.trans hl) h⟩
  | selection _ ih =>
    obtain ⟨_, _, hrest, h⟩ := ih heq
    exact ⟨_, _, hrest, .selection h⟩
  | atom _ ih =>
    obtain ⟨_, _, hrest, h⟩ := ih heq
    exact ⟨_, _, hrest, .atom h⟩
  | member _ hdot hl ih =>
    obtain ⟨_, _, hrest, h⟩ := ih heq
    obtain ⟨dot', _, rfl, hdot', hrest⟩ := exists_of_tokens_cons hrest
    obtain ⟨l', _, rfl, hl', hrest⟩ := exists_of_tokens_cons hrest
    exact ⟨_, _, hrest, .member h (hdot'.trans hdot) (hl'.trans hl)⟩
  | index _ ho _ hc ih ihproperty =>
    obtain ⟨_, _, hrest, h⟩ := ih heq
    obtain ⟨o', _, rfl, ho', hrest⟩ := exists_of_tokens_cons hrest
    obtain ⟨_, _, hrest, hproperty⟩ := ihproperty hrest
    obtain ⟨c', _, rfl, hc', hrest⟩ := exists_of_tokens_cons hrest
    exact ⟨_, _, hrest, .index h (ho'.trans ho) hproperty (hc'.trans hc)⟩
  | leaf h =>
    obtain ⟨l', _, rfl, hl', hrest⟩ := exists_of_tokens_cons heq
    exact ⟨_, _, hrest, .leaf (by rw [hl', h])⟩
  | group ho _ hc ih =>
    obtain ⟨o', _, rfl, ho', hrest⟩ := exists_of_tokens_cons heq
    obtain ⟨_, _, hrest, h⟩ := ih hrest
    obtain ⟨c', _, rfl, hc', hrest⟩ := exists_of_tokens_cons hrest
    exact ⟨_, _, hrest, .group (ho'.trans ho) h (hc'.trans hc)⟩
  | array ho _ hc ih =>
    obtain ⟨o', _, rfl, ho', hrest⟩ := exists_of_tokens_cons heq
    obtain ⟨_, _, hrest, h⟩ := ih hrest
    obtain ⟨c', _, rfl, hc', hrest⟩ := exists_of_tokens_cons hrest
    obtain ⟨_, rfl⟩ := h.exists_array (.inl rfl)
    exact ⟨_, _, hrest, .array (ho'.trans ho) h (hc'.trans hc)⟩
  | call hl ho _ hc ih =>
    obtain ⟨l', _, rfl, hl', hrest⟩ := exists_of_tokens_cons heq
    obtain ⟨o', _, rfl, ho', hrest⟩ := exists_of_tokens_cons hrest
    obtain ⟨_, _, hrest, h⟩ := ih hrest
    obtain ⟨c', _, rfl, hc', hrest⟩ := exists_of_tokens_cons hrest
    obtain ⟨_, rfl⟩ := h.exists_array (.inl rfl)
    exact ⟨_, _, hrest, .call (hl'.trans hl) (ho'.trans ho) h (hc'.trans hc)⟩
  | nothing => exact ⟨_, _, heq, .nothing⟩
  | something _ ih =>
    obtain ⟨_, _, hrest, h⟩ := ih heq
    obtain ⟨_, rfl⟩ := h.exists_array (.inr rfl)
    exact ⟨_, _, hrest, .something h⟩
  | last _ ih =>
    obtain ⟨_, _, hrest, h⟩ := ih heq
    exact ⟨_, _, hrest, .last h⟩
  | more _ hc _ ih ihitems =>
    obtain ⟨_, _, hrest, h⟩ := ih heq
    obtain ⟨c', _, rfl, hc', hrest⟩ := exists_of_tokens_cons hrest
    obtain ⟨_, _, hrest, hitems⟩ := ihitems hrest
    obtain ⟨_, rfl⟩ := hitems.exists_array (.inr rfl)
    exact ⟨_, _, hrest, .more h (hc'.trans hc) hitems⟩

/-- The tokens of an expression, wherever they stand. -/
def Sentence (tokens : List Token) : Prop :=
  ∃ lexemes e, lexemes.map Lexeme.token = tokens ∧ Derives .expression lexemes e []

theorem sentence_map {lexemes : List Lexeme} :
    Sentence (lexemes.map Lexeme.token) ↔ ∃ e, Derives .expression lexemes e [] := by
  constructor
  · rintro ⟨lexemes', e, heq, h⟩
    obtain ⟨e', rest, hrest, h'⟩ := h.of_tokens heq.symm
    obtain rfl := List.map_eq_nil_iff.mp hrest
    exact ⟨e', h'⟩
  · rintro ⟨e, h⟩
    exact ⟨lexemes, e, rfl, h⟩

/-! ## How phrases start -/

/-- Whether an atom can start with a token. -/
def startsAtom : Token → Bool
  | .openParen => true
  | .openBracket => true
  | t => t.leaf?.isSome

/-- Whether a phrase can start with a token; a list need not have a first token. -/
def Phrase.starts : Phrase → Token → Bool
  | .atom, t => startsAtom t
  | .selection, t => startsAtom t
  | .list, _ => true
  | _, t => startsAtom t || t == .minus || t == .bang

/-- Every phrase but a list has a first token, and one of those that can start it. -/
theorem Derives.starts {p : Phrase} {input rest : List Lexeme} {e : Expr}
    (h : Derives p input e rest) (hp : p ≠ .list) :
    ∃ l tail, input = l :: tail ∧ p.starts l.token = true := by
  -- The first token of a phrase is that of its first part, unless the rule brings one itself.
  induction h with
  | chain _ ih => exact ih (by simp)
  | conditional _ _ _ _ _ ih _ _ => exact ih (by simp)
  | tighter _ _ ih => exact ih (by simp)
  | operation _ _ _ ih _ => exact ih (by simp)
  | operand _ ih => exact ih (by simp)
  | @prefixed op l input _ _ hl _ _ =>
    refine ⟨l, input, rfl, ?_⟩
    rw [hl]
    cases op <;> rfl
  | selection _ ih =>
    obtain ⟨l, tail, rfl, hstarts⟩ := ih (by simp)
    refine ⟨l, tail, rfl, ?_⟩
    -- A prefixed operand can start with two tokens more than a selection.
    show (startsAtom l.token || l.token == .minus || l.token == .bang) = true
    rw [show startsAtom l.token = true from hstarts]
    rfl
  | atom _ ih => exact ih (by simp)
  | member _ _ _ ih => exact ih (by simp)
  | index _ _ _ _ ih _ => exact ih (by simp)
  | @leaf l rest e h =>
    refine ⟨l, rest, rfl, ?_⟩
    rw [Phrase.starts]
    unfold startsAtom
    split
    · rfl
    · rfl
    · rw [h]
      rfl
  | group ho _ _ _ => exact ⟨_, _, rfl, by rw [ho]; rfl⟩
  | array ho _ _ _ => exact ⟨_, _, rfl, by rw [ho]; rfl⟩
  | call hl _ _ _ _ => exact ⟨_, _, rfl, by rw [hl]; rfl⟩
  | nothing => exact absurd rfl hp
  | something _ _ => exact absurd rfl hp
  | last _ ih => exact ih (by simp)
  | more _ _ _ ih _ => exact ih (by simp)

/-- What is left is part of the input. -/
theorem Derives.length_le {p : Phrase} {input rest : List Lexeme} {e : Expr}
    (h : Derives p input e rest) : rest.length ≤ input.length := by
  obtain ⟨read, rfl, -⟩ := h.split
  rw [List.length_append]
  omega

/-- Every phrase but a list reads something. -/
theorem Derives.shorter {p : Phrase} {input rest : List Lexeme} {e : Expr}
    (h : Derives p input e rest) (hp : p ≠ .list) : rest.length < input.length := by
  obtain ⟨read, rfl, hother⟩ := h.split
  -- Nothing can be derived from nothing.
  obtain ⟨l, tail, heq, -⟩ := (hother []).starts hp
  have hlen : read.length = tail.length + 1 := by simpa using congrArg List.length heq
  rw [List.length_append]
  omega

end Expr

end Dataflow
