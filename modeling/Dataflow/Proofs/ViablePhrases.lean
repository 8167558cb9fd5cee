import Dataflow.Proofs.ExprGrammar

/-!
# Starts of phrases

Lexemes are `Viable` as a phrase if they are the start of one, so that some lexemes complete them.
A phrase that is part of another one starts that one too, after what stands before it: here is one
lemma for each place in each rule of the grammar. Brackets that are open are closed, a choice gets
its other side, and a missing operand is the word for null.
-/

namespace Dataflow

namespace Expr

/-- The lexemes are the start of some phrase. -/
def Viable (p : Phrase) (read : List Lexeme) : Prop := ∃ more e, Derives p (read ++ more) e []

section

variable {p : Phrase} {read start rest : List Lexeme} {e : Expr}

/-- What derives a phrase as a whole derives it whatever follows. -/
theorem Derives.before (h : Derives p read e []) (rest : List Lexeme) :
    Derives p (read ++ rest) e rest := by
  obtain ⟨read', rfl, hother⟩ := h.split
  rw [List.append_nil]
  exact hother rest

/-- What is read of an input derives the phrase as a whole. -/
theorem Derives.whole (h : Derives p (read ++ rest) e rest) : Derives p read e [] := by
  obtain ⟨read', heq, hother⟩ := h.split
  obtain rfl := List.append_cancel_right heq
  simpa using hother []

theorem Derives.viable (h : Derives p read e []) : Viable p read :=
  ⟨[], e, by rwa [List.append_nil]⟩

/-- What starts a phrase of one kind starts one of another kind that has it in front. -/
theorem Viable.mono {q : Phrase} (h : Viable q read)
    (hq : ∀ input e, Derives q input e [] → ∃ e', Derives p input e' []) : Viable p read := by
  obtain ⟨more, e, h⟩ := h
  obtain ⟨e', h'⟩ := hq _ e h
  exact ⟨more, e', h'⟩

/-- What starts a phrase starts another one after other lexemes, which ends with some more. -/
theorem Viable.within {q : Phrase} (h : Viable q read) (ends : List Lexeme)
    (hq : ∀ input e, Derives q input e [] → ∃ e', Derives p (start ++ (input ++ ends)) e' []) :
    Viable p (start ++ read) := by
  obtain ⟨more, e, h⟩ := h
  obtain ⟨e', h'⟩ := hq _ e h
  exact ⟨more ++ ends, e', by simpa using h'⟩

/-- A lexeme without a place, to complete phrases with. -/
def lexeme (t : Token) : Lexeme := ⟨t, 0, 0⟩

theorem viable_atom : Viable .atom [] := ⟨[lexeme .nullWord], _, .leaf rfl⟩

/-! ## Lists and atoms -/

theorem Viable.last (h : Viable .expression read) : Viable .items read :=
  h.mono fun _ e h => ⟨.array [e], .last h⟩

theorem Viable.list (h : Viable .items read) : Viable .list read := by
  refine h.mono fun _ e h => ?_
  obtain ⟨items, rfl⟩ := h.exists_array (.inr rfl)
  exact ⟨_, .something h⟩

theorem Viable.more {c : Lexeme} (hitem : Derives .expression start e []) (hc : c.token = .comma)
    (h : Viable .items read) : Viable .items (start ++ [c] ++ read) := by
  refine h.within [] fun input e h => ?_
  obtain ⟨items, rfl⟩ := h.exists_array (.inr rfl)
  have hmore := Derives.more (hitem.before (c :: input)) hc h
  exact ⟨_, by simpa using hmore⟩

theorem Viable.group {o : Lexeme} (ho : o.token = .openParen) (h : Viable .expression read) :
    Viable .atom ([o] ++ read) :=
  h.within [lexeme .closeParen] fun _ e h =>
    ⟨e, .group ho (h.before [lexeme .closeParen]) rfl⟩

theorem Viable.array {o : Lexeme} (ho : o.token = .openBracket) (h : Viable .list read) :
    Viable .atom ([o] ++ read) := by
  refine h.within [lexeme .closeBracket] fun _ e h => ?_
  obtain ⟨items, rfl⟩ := h.exists_array (.inl rfl)
  exact ⟨_, .array ho (h.before [lexeme .closeBracket]) rfl⟩

theorem Viable.call {l o : Lexeme} {id : String} (hl : l.token = .name id)
    (ho : o.token = .openParen) (h : Viable .list read) : Viable .atom ([l, o] ++ read) := by
  refine h.within [lexeme .closeParen] fun _ e h => ?_
  obtain ⟨items, rfl⟩ := h.exists_array (.inl rfl)
  exact ⟨_, .call hl ho (h.before [lexeme .closeParen]) rfl⟩

/-! ## Selections -/

theorem Derives.dotted {dot l : Lexeme} {id : String} (hobject : Derives .selection start e [])
    (hdot : dot.token = .dot) (hl : l.token = .name id) :
    Derives .selection (start ++ [dot] ++ [l]) (.member e (.literal (.string id))) [] := by
  have hmember := Derives.member (hobject.before [dot, l]) hdot hl
  simpa using hmember

theorem Derives.indexed {o c : Lexeme} {property : Expr} (hobject : Derives .selection start e [])
    (ho : o.token = .openBracket) (hproperty : Derives .expression read property [])
    (hc : c.token = .closeBracket) :
    Derives .selection (start ++ [o] ++ read ++ [c]) (.member e property) [] := by
  have hindex := Derives.index (hobject.before (o :: (read ++ [c]))) ho (hproperty.before [c]) hc
  simpa using hindex

theorem Viable.index {o : Lexeme} (h : Viable .expression read)
    (hobject : Derives .selection start e []) (ho : o.token = .openBracket) :
    Viable .selection (start ++ [o] ++ read) :=
  h.within [lexeme .closeBracket] fun input _ h =>
    ⟨_, by simpa using hobject.indexed ho h rfl⟩

/-! ## Operators -/

theorem Derives.operated {k : Nat} {op : BinaryOp} {l : Lexeme} {right : Expr}
    (hleft : Derives (.chain k) start e []) (hl : l.token = op.token) (hk : op.level = k)
    (hright : Derives (.chain (k + 1)) read right []) :
    Derives (.chain k) (start ++ [l] ++ read) (.binary op e right) [] := by
  subst hk
  have hoperation := Derives.operation (hleft.before (l :: read)) hl hright
  simpa using hoperation

theorem Viable.operand {k : Nat} {op : BinaryOp} {l : Lexeme} (h : Viable (.chain (k + 1)) read)
    (hleft : Derives (.chain k) start e []) (hl : l.token = op.token) (hk : op.level = k) :
    Viable (.chain k) (start ++ [l] ++ read) :=
  h.within [] fun _ _ h => ⟨_, by simpa using hleft.operated hl hk h⟩

theorem Viable.prefixed {op : UnaryOp} {l : Lexeme} (h : Viable .prefixed read)
    (hl : l.token = op.token) : Viable .prefixed ([l] ++ read) :=
  h.within [] fun _ _ h => ⟨_, by simpa using Derives.prefixed hl h⟩

/-! ## Choices -/

theorem Derives.chosen {q c : Lexeme} {yesRead noRead : List Lexeme} {yes no : Expr}
    (htest : Derives (.chain 0) start e []) (hq : q.token = .question)
    (hyes : Derives .expression yesRead yes []) (hc : c.token = .colon)
    (hno : Derives .expression noRead no []) :
    Derives .expression (start ++ [q] ++ yesRead ++ [c] ++ noRead) (.conditional e yes no) [] := by
  have hconditional := Derives.conditional (htest.before (q :: (yesRead ++ c :: noRead))) hq
    (hyes.before (c :: noRead)) hc hno
  simpa using hconditional

theorem Viable.yes {q : Lexeme} (h : Viable .expression read)
    (htest : Derives (.chain 0) start e []) (hq : q.token = .question) :
    Viable .expression (start ++ [q] ++ read) :=
  h.within [lexeme .colon, lexeme .nullWord] fun _ _ h =>
    ⟨_, by simpa using htest.chosen hq h rfl (.expression_of_atom (.leaf rfl))⟩

theorem Viable.no {q c : Lexeme} {yesRead : List Lexeme} {yes : Expr} (h : Viable .expression read)
    (htest : Derives (.chain 0) start e []) (hq : q.token = .question)
    (hyes : Derives .expression yesRead yes []) (hc : c.token = .colon) :
    Viable .expression (start ++ [q] ++ yesRead ++ [c] ++ read) :=
  h.within [] fun _ _ h => ⟨_, by simpa using htest.chosen hq hyes hc h⟩

end

end Expr

end Dataflow
