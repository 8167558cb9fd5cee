import Dataflow.Expr.Eval
import Dataflow.Proofs.ExprParserSound
import Dataflow.Proofs.SourceTiling

/-!
# Calls and where they stand

A call is a name that an opening parenthesis follows at once (`callSites`). The calls that are
gathered from a tree are those of the lexemes that derive it, in the same order
(`Derives.calls_eq`), since in no rule of the grammar a phrase is followed by an opening
parenthesis. So checking the calls of a tree against a library finds the first name in the text
that the library lacks, and an expression that passes never needs a function that is not there
(`evalKnown_eq_eval`).
-/

namespace Dataflow

namespace Expr

/-! ## Call sites -/

/-- The names that an opening parenthesis follows, with the place of each. -/
def callSites : List Lexeme → List (String × Nat)
  | [] => []
  | [_] => []
  | l :: o :: rest =>
    match l.token with
    | .name id => if o.token = .openParen then (id, l.start) :: callSites (o :: rest)
      else callSites (o :: rest)
    | _ => callSites (o :: rest)

section

variable {l o : Lexeme} {xs ys : List Lexeme}

theorem callSites_cons (hl : ∀ id, l.token ≠ .name id) : callSites (l :: xs) = callSites xs := by
  cases xs with
  | nil => rfl
  | cons o xs =>
    rw [callSites]
    split
    · rename_i id h
      exact absurd h (hl id)
    · rfl

theorem callSites_name (ho : o.token ≠ .openParen) :
    callSites (l :: o :: xs) = callSites (o :: xs) := by
  rw [callSites]
  split
  · rw [if_neg ho]
  · rfl

theorem callSites_call {id : String} (hl : l.token = .name id) (ho : o.token = .openParen) :
    callSites (l :: o :: xs) = (id, l.start) :: callSites xs := by
  rw [callSites, hl]
  simp only [ho, if_true]
  rw [callSites_cons (by rw [ho]; exact fun _ h => nomatch h)]

/-- Call sites end where no parenthesis opens. -/
theorem callSites_append (hl : l.token ≠ .openParen) :
    callSites (xs ++ l :: ys) = callSites xs ++ callSites (l :: ys) := by
  induction xs with
  | nil => rfl
  | cons x xs ih =>
    cases xs with
    | nil => exact callSites_name hl
    | cons o xs =>
      rw [List.cons_append] at ih
      rw [List.cons_append, List.cons_append, callSites, callSites]
      split
      · split
        · rw [ih, List.cons_append]
        · exact ih
      · exact ih

/-- A token between two phrases: neither a name nor an opening parenthesis. -/
def Separates (t : Token) : Prop := t ≠ .openParen ∧ ∀ id, t ≠ .name id

theorem callSites_separated (hl : Separates l.token) :
    callSites (xs ++ l :: ys) = callSites xs ++ callSites ys := by
  rw [callSites_append hl.1, callSites_cons hl.2]

theorem callSites_closed (hl : Separates l.token) : callSites (xs ++ [l]) = callSites xs := by
  rw [callSites_separated hl, callSites, List.append_nil]

/-- Call sites stand in the order of the lexemes, each at the place of one of them. -/
theorem callSites_sublist : ((callSites xs).map Prod.snd).Sublist (xs.map Lexeme.start) := by
  fun_induction callSites xs with
  | case1 => exact .slnil
  | case2 => exact List.nil_sublist _
  | case3 _ _ _ _ _ _ ih => exact ih.cons_cons _
  | case4 _ _ _ _ _ _ ih => exact ih.cons _
  | case5 _ _ _ _ ih => exact ih.cons _

theorem mem_callSites {id : String} {offset : Nat} :
    (id, offset) ∈ callSites xs ↔ ∃ before l o after, xs = before ++ l :: o :: after ∧
      l.token = .name id ∧ l.start = offset ∧ o.token = .openParen := by
  constructor
  · -- A site is the first one or one of the others, with one more lexeme before it.
    intro h
    fun_induction callSites xs with
    | case1 => exact nomatch h
    | case2 => exact nomatch h
    | case3 l o after id' hl ho ih =>
      obtain heq | h := List.mem_cons.mp h
      · obtain ⟨rfl, rfl⟩ := Prod.mk.inj heq
        exact ⟨[], l, o, after, rfl, hl, rfl, ho⟩
      · obtain ⟨before, l', o', after', heq, hsite⟩ := ih h
        exact ⟨l :: before, l', o', after', congrArg (l :: ·) heq, hsite⟩
    | case4 l _ _ _ _ _ ih =>
      obtain ⟨before, l', o', after', heq, hsite⟩ := ih h
      exact ⟨l :: before, l', o', after', congrArg (l :: ·) heq, hsite⟩
    | case5 l _ _ _ ih =>
      obtain ⟨before, l', o', after', heq, hsite⟩ := ih h
      exact ⟨l :: before, l', o', after', congrArg (l :: ·) heq, hsite⟩
  · rintro ⟨before, l, o, after, rfl, hl, rfl, ho⟩
    -- No opening parenthesis stands before the name, so the lexemes before it make their own calls.
    rw [callSites_append (by rw [hl]; exact nofun), callSites_call hl ho]
    exact List.mem_append_right _ List.mem_cons_self

end

theorem separates_of_eq {t t' : Token} (h : t = t') (hparen : t' ≠ .openParen := by simp)
    (hname : ∀ id, t' ≠ .name id := by simp) : Separates t := h ▸ ⟨hparen, hname⟩

theorem separates_binary (op : BinaryOp) : Separates op.token := by
  cases op <;> exact ⟨nofun, nofun⟩

theorem separates_unary (op : UnaryOp) : Separates op.token := by
  cases op <;> exact ⟨nofun, nofun⟩

theorem calls_of_leaf {t : Token} {e : Expr} (h : t.leaf? = some e) : e.calls = [] := by
  cases t <;> first | (obtain rfl := Option.some.inj h; rfl) | exact nomatch h

/-! ## The calls of a derived tree -/

/-- The calls of a tree stand, in this order, at the call sites of what it is derived from. -/
theorem Derives.calls_eq {p : Phrase} {input rest : List Lexeme} {e : Expr}
    (h : Derives p input e rest) : ∃ read, input = read ++ rest ∧ e.calls = callSites read := by
  -- Every rule puts its own tokens around its parts; only a call has a name before a parenthesis.
  induction h with
  | chain _ ih => exact ih
  | @conditional _ _ _ _ _ _ _ q c _ hq _ hc _ ihtest ihyes ihno =>
    obtain ⟨testRead, rfl, htest⟩ := ihtest
    obtain ⟨yesRead, rfl, hyes⟩ := ihyes
    obtain ⟨noRead, rfl, hno⟩ := ihno
    refine ⟨testRead ++ q :: (yesRead ++ c :: noRead), by simp, ?_⟩
    rw [callSites_separated (separates_of_eq hq), callSites_separated (separates_of_eq hc), calls,
      htest, hyes, hno, List.append_assoc]
  | tighter _ _ ih => exact ih
  | @operation op _ _ _ _ _ l _ hl _ ihleft ihright =>
    obtain ⟨leftRead, rfl, hleft⟩ := ihleft
    obtain ⟨rightRead, rfl, hright⟩ := ihright
    refine ⟨leftRead ++ l :: rightRead, by simp, ?_⟩
    rw [callSites_separated (hl ▸ separates_binary op), calls, hleft, hright]
  | operand _ ih => exact ih
  | @prefixed op l _ _ _ hl _ ih =>
    obtain ⟨read, rfl, h⟩ := ih
    refine ⟨l :: read, rfl, ?_⟩
    rw [callSites_cons (hl ▸ separates_unary op).2, calls, h]
  | selection _ ih => exact ih
  | atom _ ih => exact ih
  | @member _ _ _ dot l _ _ hdot hl ih =>
    obtain ⟨read, rfl, h⟩ := ih
    refine ⟨read ++ [dot, l], by simp, ?_⟩
    rw [callSites_separated (separates_of_eq hdot), calls, h]
    rfl
  | @index _ _ _ _ _ o c _ ho _ hc ih ihproperty =>
    obtain ⟨read, rfl, h⟩ := ih
    obtain ⟨propertyRead, rfl, hproperty⟩ := ihproperty
    refine ⟨read ++ o :: (propertyRead ++ [c]), by simp, ?_⟩
    rw [callSites_separated (separates_of_eq ho), callSites_closed (separates_of_eq hc), calls, h,
      hproperty]
  | @leaf l _ e h =>
    exact ⟨[l], rfl, calls_of_leaf h⟩
  | @group o c _ _ _ ho _ hc ih =>
    obtain ⟨read, rfl, h⟩ := ih
    refine ⟨o :: (read ++ [c]), by simp, ?_⟩
    rw [callSites_cons (by simp [ho]), callSites_closed (separates_of_eq hc), h]
  | @array o c _ _ _ ho _ hc ih =>
    obtain ⟨read, rfl, h⟩ := ih
    refine ⟨o :: (read ++ [c]), by simp, ?_⟩
    rw [callSites_cons (by simp [ho]), callSites_closed (separates_of_eq hc), h]
  | @call l o c _ _ _ _ hl ho _ hc ih =>
    obtain ⟨read, rfl, h⟩ := ih
    refine ⟨l :: o :: (read ++ [c]), by simp, ?_⟩
    rw [callSites_call hl ho, callSites_closed (separates_of_eq hc), ← h]
    rfl
  | nothing => exact ⟨[], rfl, rfl⟩
  | something _ ih => exact ih
  | last _ ih =>
    obtain ⟨read, rfl, h⟩ := ih
    refine ⟨read, rfl, ?_⟩
    rw [← h]
    exact List.append_nil _
  | @more _ _ _ _ _ c _ hc _ ih ihitems =>
    obtain ⟨read, rfl, h⟩ := ih
    obtain ⟨itemsRead, rfl, hitems⟩ := ihitems
    refine ⟨read ++ c :: itemsRead, by simp, ?_⟩
    rw [callSites_separated (separates_of_eq hc), ← h, ← hitems]
    rfl

/-! ## Evaluation that finds every function -/

mutual

/-- The value of an expression on a record, none where it takes a function that is not there. -/
def eval? (library : Option Binding) (datum : Json) : Expr → Option Json
  | .literal v => some v
  | .array items => (evalAll? library datum items).map .array
  | .name id => some (if id = "datum" then datum else (datum.get? id).getD .null)
  | .member object property => do
    return (← eval? library datum object).memberAt (← eval? library datum property)
  | .unary op operand => (eval? library datum operand).map (applyUnary op)
  | .binary op left right => do
    return apply op (← eval? library datum left) (← eval? library datum right)
  | .conditional test yes no => do
    if (← eval? library datum test).truthy then eval? library datum yes
    else eval? library datum no
  | .call function arguments _ => do
    (← library).call function (← evalAll? library datum arguments)

/-- The values of several expressions, none where one of them has none. -/
def evalAll? (library : Option Binding) (datum : Json) : List Expr → Option (List Json)
  | [] => some []
  | e :: rest => do return (← eval? library datum e) :: (← evalAll? library datum rest)

end

/-- The library has a value for every call of some functions. -/
def Answers (library : Binding) (calls : List (String × Nat)) : Prop :=
  ∀ c ∈ calls, ∀ arguments, (library.call c.1 arguments).isSome = true

theorem Answers.append {library : Binding} {xs ys : List (String × Nat)} :
    Answers library (xs ++ ys) ↔ Answers library xs ∧ Answers library ys := by
  simp only [Answers, List.mem_append, or_imp, forall_and]

mutual

/-- Where the library answers every call, the value is found without any function missing. -/
theorem eval?_eq_some {library : Binding} (datum : Json) :
    (e : Expr) → Answers library e.calls →
      e.eval? (some library) datum = some (e.eval (some library) datum)
  | .literal _, _ => rfl
  | .array items, h => by rw [eval?, eval, evalAll?_eq_some datum items h, Option.map_some]
  | .name _, _ => rfl
  | .member object property, h => by
    obtain ⟨ho, hp⟩ := Answers.append.mp h
    rw [eval?, eval, eval?_eq_some datum object ho, eval?_eq_some datum property hp]
    rfl
  | .unary _ operand, h => by rw [eval?, eval, eval?_eq_some datum operand h, Option.map_some]
  | .binary _ left right, h => by
    obtain ⟨hl, hr⟩ := Answers.append.mp h
    rw [eval?, eval, eval?_eq_some datum left hl, eval?_eq_some datum right hr]
    rfl
  | .conditional test yes no, h => by
    obtain ⟨hty, hn⟩ := Answers.append.mp h
    obtain ⟨ht, hy⟩ := Answers.append.mp hty
    rw [eval?, eval, eval?_eq_some datum test ht, eval?_eq_some datum yes hy,
      eval?_eq_some datum no hn, Option.bind_eq_bind, Option.bind_some, apply_ite some]
  | .call function arguments offset, h => by
    have hargs : Answers library (callsAll arguments) :=
      fun c hc => h c (List.mem_cons_of_mem _ hc)
    have hcall := h (function, offset) List.mem_cons_self
      (evalAll (some library) datum arguments)
    obtain ⟨v, hv⟩ := Option.isSome_iff_exists.mp hcall
    rw [eval?, eval, evalAll?_eq_some datum arguments hargs]
    simp only [Option.bind_eq_bind, Option.bind_some, hv, Option.getD_some]

theorem evalAll?_eq_some {library : Binding} (datum : Json) :
    (es : List Expr) → Answers library (callsAll es) →
      evalAll? (some library) datum es = some (evalAll (some library) datum es)
  | [], _ => rfl
  | e :: rest, h => by
    obtain ⟨he, hrest⟩ := Answers.append.mp h
    rw [evalAll?, evalAll, eval?_eq_some datum e he, evalAll?_eq_some datum rest hrest]
    rfl

end

/-- The standard library answers the calls of the functions that it has: every name that may be
called reaches a function. -/
theorem answers_standard {context : ScopeContext} {calls : List (String × Nat)}
    (h : ∀ c ∈ calls, Binding.contains ⟨.standard, context⟩ c.1 = true) :
    Answers ⟨.standard, context⟩ calls := by
  intro c hc arguments
  rw [Binding.call, Library.standard, Option.isSome_map, Builtin.isSome_ofName?]
  exact h c hc

/-! ## Checking -/

/-- A text compiles to the tree it is read as, unless a function is unknown. -/
theorem compile_of_parse {source : String} {e : Expr} (h : parse source = .ok e)
    (library : Binding) :
    compile source (some library) = match unknownCall? library e with
      | some c => .error (.unknownFunction c.1 c.2)
      | none => .ok e := by
  unfold compile
  rw [h]
  dsimp only [bind, Except.bind, Option.bind_some]
  cases unknownCall? library e <;> rfl

theorem compile_eq_ok_iff {source : String} {e : Expr} (h : parse source = .ok e)
    (library : Binding) :
    compile source (some library) = .ok e ↔ ∀ c ∈ e.calls, library.contains c.1 = true := by
  rw [compile_of_parse h]
  cases hunknown : unknownCall? library e with
  | none =>
    have hall := List.find?_eq_none.mp hunknown
    exact iff_of_true rfl fun c hc => by simpa using hall c hc
  | some c =>
    refine iff_of_false nofun fun hall => ?_
    have hc := List.find?_some hunknown
    rw [hall c (List.mem_of_find?_eq_some hunknown)] at hc
    exact nomatch hc

/-- The first unknown function in the text is the one that is reported. -/
theorem compile_eq_error {source : String} {e : Expr} (h : parse source = .ok e)
    (hsorted : e.calls.Pairwise fun c d => c.2 < d.2) (library : Binding)
    (hunknown : ∃ c ∈ e.calls, library.contains c.1 = false) :
    ∃ c ∈ e.calls, library.contains c.1 = false ∧
      (∀ d ∈ e.calls, d.2 < c.2 → library.contains d.1 = true) ∧
      compile source (some library) = .error (.unknownFunction c.1 c.2) := by
  obtain ⟨b, hb, hbnot⟩ := hunknown
  have hsome : (unknownCall? library e).isSome = true :=
    List.find?_isSome.mpr ⟨b, hb, by simpa using hbnot⟩
  obtain ⟨c, hc⟩ := Option.isSome_iff_exists.mp hsome
  obtain ⟨hcnot, before, after, hcalls, hbefore⟩ := List.find?_eq_some_iff_append.mp hc
  refine ⟨c, List.mem_of_find?_eq_some hc, by simpa using hcnot, fun d hd hlt => ?_, ?_⟩
  · -- What stands further left comes before the call that is found.
    rw [hcalls] at hd hsorted
    obtain hd | hd := List.mem_append.mp hd
    · simpa using hbefore d hd
    · have hle : c.2 ≤ d.2 := by
        obtain rfl | hd := List.mem_cons.mp hd
        · exact Nat.le_refl _
        · have htail := (List.pairwise_append.mp hsorted).2.1
          exact Nat.le_of_lt (List.rel_of_pairwise_cons htail hd)
      omega
  · rw [compile_of_parse h, hc]

/-- The check of the functions that a text calls is exact. The calls of its tree stand, in the
order of the text, where an opening parenthesis follows a name; a library passes if it has all of
these functions, and otherwise the leftmost that it lacks is reported; and what the standard
library passes has a value on every record without any function missing. -/
theorem function_check_exact (source : String) (e : Expr) (h : parse source = .ok e) :
    (∃ lexemes, Lexeme.scan source = .ok lexemes ∧
      ∀ function offset, (function, offset) ∈ e.calls ↔
        ∃ before l o after, lexemes = before ++ l :: o :: after ∧ l.token = .name function ∧
          l.start = offset ∧ o.token = .openParen) ∧
    e.calls.Pairwise (fun c d => c.2 < d.2) ∧
    (∀ library : Binding,
      (compile source (some library) = .ok e ↔ ∀ c ∈ e.calls, library.contains c.1 = true) ∧
      ((∃ c ∈ e.calls, library.contains c.1 = false) →
        ∃ c ∈ e.calls, library.contains c.1 = false ∧
          (∀ d ∈ e.calls, d.2 < c.2 → library.contains d.1 = true) ∧
          compile source (some library) = .error (.unknownFunction c.1 c.2))) ∧
    ∀ context datum, compile source (some ⟨.standard, context⟩) = .ok e →
      e.eval? (some ⟨.standard, context⟩) datum =
        some (e.eval (some ⟨.standard, context⟩) datum) := by
  obtain ⟨lexemes, hscan, hread⟩ := bind_eq_ok.mp h
  have hcalls : e.calls = callSites lexemes := by
    obtain ⟨read, rfl, hcalls⟩ := (derives_of_ofLexemes hread).calls_eq
    rwa [List.append_nil]
  have hsorted : e.calls.Pairwise fun c d => c.2 < d.2 := by
    have hstarts := (Lexeme.scanFrom_eq_ok_iff.mp hscan).starts
    have hplaces := (List.pairwise_map.mpr hstarts).sublist callSites_sublist
    rw [hcalls]
    exact List.pairwise_map.mp hplaces
  refine ⟨⟨lexemes, hscan, fun function offset => ?_⟩, hsorted, fun library => ⟨?_, ?_⟩, ?_⟩
  · rw [hcalls]
    exact mem_callSites
  · exact compile_eq_ok_iff h library
  · exact compile_eq_error h hsorted library
  · intro context datum hcompile
    exact eval?_eq_some datum e (answers_standard ((compile_eq_ok_iff h _).mp hcompile))

/-- A call in the arguments of another stands after it, and both are found. -/
theorem function_check_exact_nested :
    let e : Expr := .call "max" [.call "abs" [.name "x"] 4, .name "y"] 0
    let library : Binding := ⟨.standard, ⟨0, []⟩⟩
    parse "max(abs(x), y)" = .ok e ∧ compile "max(abs(x), y)" (some library) = .ok e ∧
      (∀ datum, e.eval? (some library) datum = some (e.eval (some library) datum)) ∧
      compile "max(abs(x), y)" (some ⟨⟨fun _ => false, fun _ _ _ => none⟩, ⟨0, []⟩⟩) =
        .error (.unknownFunction "max" 0) := by
  intro e library
  have hscan : Lexeme.scan "max(abs(x), y)" = .ok [⟨.name "max", 0, 3⟩, ⟨.openParen, 3, 4⟩,
      ⟨.name "abs", 4, 7⟩, ⟨.openParen, 7, 8⟩, ⟨.name "x", 8, 9⟩, ⟨.closeParen, 9, 10⟩,
      ⟨.comma, 10, 11⟩, ⟨.name "y", 12, 13⟩, ⟨.closeParen, 13, 14⟩] := by
    decide +kernel
  have hparse : parse "max(abs(x), y)" = .ok e := by
    rw [parse_of_scan hscan, show "max(abs(x), y)".utf8ByteSize = 14 from rfl]
    cbv
  have hcalls : e.calls = [("max", 0), ("abs", 4)] := rfl
  obtain ⟨-, -, hcheck, heval⟩ := function_check_exact _ _ hparse
  have hcompile : compile "max(abs(x), y)" (some library) = .ok e := by
    refine (hcheck library).1.mpr ?_
    rw [hcalls]
    decide
  obtain ⟨c, hc, -, hleft, herror⟩ := (hcheck ⟨⟨fun _ => false, fun _ _ _ => none⟩, ⟨0, []⟩⟩).2
    ⟨("max", 0), List.mem_cons_self, rfl⟩
  refine ⟨hparse, hcompile, fun datum => heval _ datum hcompile, ?_⟩
  -- Any other call stands further right than one that is unknown as well.
  rw [hcalls] at hc
  obtain rfl | rfl : c = ("max", 0) ∨ c = ("abs", 4) := by simpa using hc
  · exact herror
  · have hmax := hleft ("max", 0) List.mem_cons_self (by decide)
    exact absurd hmax Bool.false_ne_true

end Expr

end Dataflow
