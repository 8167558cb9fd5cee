import Dataflow.Proofs.ExprGrammar

/-!
# What the parser reads is derived

A rule is sound for a phrase (`Sound`) if the grammar derives, as this phrase, whatever the rule
reads. Every rule is sound if the rules that it is given are, so all are sound by induction on the
levels that are left (`sound_nested`). The loops carry along that what they have read so far is
derived. No limit matters here.
-/

namespace Dataflow

namespace Expr

/-- What the rule reads is derived as the phrase. -/
def Sound (p : Phrase) (rule : Rule) : Prop :=
  ∀ input r, rule input = .ok r → Derives p input r.expr r.rest

/-! ## Single steps -/

theorem bind_eq_ok {ε α β : Type} {x : Except ε α} {f : α → Except ε β} {b : β} :
    (x >>= f) = .ok b ↔ ∃ a, x = .ok a ∧ f a = .ok b := by
  cases x with
  | error e =>
    constructor
    · exact fun h => nomatch h
    · exact fun ⟨_, h, _⟩ => nomatch h
  | ok a =>
    constructor
    · exact fun h => ⟨a, rfl, h⟩
    · rintro ⟨a', h, hf⟩
      obtain rfl := Except.ok.inj h
      exact hf

/-- A text is read as its lexemes are. -/
theorem parse_of_scan {source : String} {lexemes : List Lexeme}
    (h : Lexeme.scan source = .ok lexemes) :
    parse source = ofLexemes ⟨source.utf8ByteSize, maxDepth⟩ maxDepth lexemes := by
  unfold parse
  rw [h]
  rfl

/-- What `expect` reads is the token that is expected. -/
theorem expect_eq_ok {token : Token} {expected : Expected} {input : List Lexeme}
    {after : { rest : List Lexeme // rest.length < input.length }}
    (h : expect token expected input = .ok after) :
    ∃ l, input = l :: after.1 ∧ l.token = token := by
  cases input with
  | nil => exact nomatch h
  | cons l rest =>
    simp only [expect] at h
    split at h
    · rename_i htoken
      obtain rfl := Except.ok.inj h
      exact ⟨l, rfl, htoken⟩
    · exact nomatch h

section

variable {bounds : Bounds} {expression : Rule} {close : Token} {expected : Expected}

/-! ## Atoms and what follows them -/

/-- The items of a list are derived up to its closing bracket. -/
theorem sound_items (hexpr : Sound .expression expression) {bound : Nat} {read : List Expr}
    {depth : Nat} {input : List Lexeme} {h : input.length ≤ bound} {r : ParsedList bound}
    (hr : items expression close expected bound read depth input h = .ok r) :
    ∃ es c, r.items = read ++ es ∧ c.token = close ∧
      Derives .items input (.array es) (c :: r.rest) := by
  fun_induction items expression close expected bound read depth input h with
  | case1 => exact nomatch hr
  | case2 => exact nomatch hr
  | case3 read depth input h item hitem l rest hrest hlt hcomma ih =>
    -- The item stands before those that the rest of the loop reads.
    obtain ⟨es, c, hitems, hc, hes⟩ := ih hr
    have hfirst := hexpr input item hitem
    rw [hrest] at hfirst
    refine ⟨item.expr :: es, c, ?_, hc, .more hfirst hcomma hes⟩
    rw [hitems, List.append_assoc, List.singleton_append]
  | case4 read depth input h item hitem l rest hrest hlt hcomma hclose =>
    obtain rfl := Except.ok.inj hr
    have hlast := hexpr input item hitem
    rw [hrest] at hlast
    exact ⟨[item.expr], l, rfl, hclose, .last hlast⟩
  | case5 => exact nomatch hr

theorem sound_list (hexpr : Sound .expression expression) {input : List Lexeme}
    {r : ParsedList input.length} (hr : list expression close expected input = .ok r) :
    ∃ c, c.token = close ∧ Derives .list input (.array r.items) (c :: r.rest) := by
  unfold list at hr
  split at hr
  · -- Nothing can be read from no input.
    obtain ⟨es, c, -, -, hes⟩ := sound_items hexpr hr
    exact nomatch (hes.starts (by simp))
  · split at hr
    · rename_i l rest hclose
      obtain rfl := Except.ok.inj hr
      exact ⟨l, hclose, .nothing⟩
    · obtain ⟨es, c, hitems, hc, hes⟩ := sound_items hexpr hr
      rw [List.nil_append] at hitems
      rw [hitems]
      exact ⟨c, hc, .something hes⟩

/-- A token that is an atom on its own is one. -/
theorem sound_leaf {l : Lexeme} {rest : List Lexeme} {e : Expr} {depth : Nat}
    {h : rest.length < (l :: rest).length} {r : Parsed (l :: rest).length}
    (hleaf : l.token.leaf? = some e)
    (hr : (.ok ⟨e, depth, rest, h⟩ : Except SyntaxError (Parsed (l :: rest).length)) = .ok r) :
    Derives .atom (l :: rest) r.expr r.rest := by
  obtain rfl := Except.ok.inj hr
  exact .leaf hleaf

theorem sound_atom (hexpr : Sound .expression expression) :
    Sound .atom (atom bounds expression) := by
  intro input r hr
  cases input with
  | nil => exact nomatch hr
  | cons l rest =>
    simp only [atom] at hr
    split at hr
    · rename_i htoken
      exact sound_leaf (by rw [htoken]; rfl) hr
    · rename_i htoken
      exact sound_leaf (by rw [htoken]; rfl) hr
    · rename_i htoken
      exact sound_leaf (by rw [htoken]; rfl) hr
    · rename_i htoken
      exact sound_leaf (by rw [htoken]; rfl) hr
    · rename_i htoken
      exact sound_leaf (by rw [htoken]; rfl) hr
    · rename_i hopen
      obtain ⟨inner, hinner, hr⟩ := bind_eq_ok.mp hr
      obtain ⟨after, hafter, hr⟩ := bind_eq_ok.mp hr
      obtain rfl := Except.ok.inj hr
      obtain ⟨c, hrest, hc⟩ := expect_eq_ok hafter
      have h := hexpr rest inner hinner
      rw [hrest] at h
      exact .group hopen h hc
    · rename_i hopen
      obtain ⟨items, hitems, hr⟩ := bind_eq_ok.mp hr
      obtain ⟨depth, -, hr⟩ := bind_eq_ok.mp hr
      obtain rfl := Except.ok.inj hr
      obtain ⟨c, hc, h⟩ := sound_list hexpr hitems
      exact .array hopen h hc
    · rename_i id htoken
      split at hr
      · rename_i hopen
        obtain ⟨arguments, harguments, hr⟩ := bind_eq_ok.mp hr
        obtain ⟨depth, -, hr⟩ := bind_eq_ok.mp hr
        obtain rfl := Except.ok.inj hr
        obtain ⟨c, hc, h⟩ := sound_list hexpr harguments
        cases rest with
        | nil => exact nomatch hopen
        | cons o rest => exact .call htoken (Option.some.inj hopen) h hc
      · exact sound_leaf (by rw [htoken]; rfl) hr
    · exact nomatch hr

/-- The members that are selected go on from an object that is derived. -/
theorem sound_members (hexpr : Sound .expression expression) {start : List Lexeme} {bound : Nat}
    {object : Expr} {depth : Nat} {input : List Lexeme} {h : input.length < bound}
    {r : Parsed bound} (hobject : Derives .selection start object input)
    (hr : members bounds expression bound object depth input h = .ok r) :
    Derives .selection start r.expr r.rest := by
  fun_induction members bounds expression bound object depth input h with
  | case1 =>
    obtain rfl := Except.ok.inj hr
    exact hobject
  | case2 => exact nomatch hr
  | case3 => exact nomatch hr
  | case4 object depth l hdot p rest _ id hname _ _ _ ih => exact ih (.member hobject hdot hname) hr
  | case5 => exact nomatch hr
  | case6 => exact nomatch hr
  | case7 => exact nomatch hr
  | case8 => exact nomatch hr
  | case9 object depth l rest _ _ hopen property hproperty after hafter _ _ _ _ _ ih =>
    obtain ⟨c, hrest, hc⟩ := expect_eq_ok hafter
    have hindex := hexpr rest property hproperty
    rw [hrest] at hindex
    exact ih (.index hobject hopen hindex hc) hr
  | case10 =>
    obtain rfl := Except.ok.inj hr
    exact hobject

theorem sound_selected (hexpr : Sound .expression expression) :
    Sound .selection (selected bounds expression) := by
  intro input r hr
  obtain ⟨first, hfirst, hr⟩ := bind_eq_ok.mp hr
  exact sound_members hexpr (.atom (sound_atom hexpr input first hfirst)) hr

/-! ## Operators -/

/-- The operators of a level are those that the grammar has there. -/
theorem operators_eq_some {k : Nat} {operators : Operators}
    (hk : operatorLevels[k]? = some operators) {t : Token} {op : BinaryOp} :
    operators t = some op ↔ t = op.token ∧ op.level = k := by
  have hlt : k < 6 := (List.getElem?_eq_some_iff.mp hk).1
  -- There are six levels, each with few operators.
  have hcases : k = 0 ∨ k = 1 ∨ k = 2 ∨ k = 3 ∨ k = 4 ∨ k = 5 := by omega
  obtain rfl | rfl | rfl | rfl | rfl | rfl := hcases
  all_goals
    obtain rfl := Option.some.inj hk
    constructor
    · intro h
      cases t <;> first | (obtain rfl := Option.some.inj h; exact ⟨rfl, rfl⟩) | exact nomatch h
    · rintro ⟨rfl, hlevel⟩
      cases op <;> first | rfl | exact nomatch hlevel

/-- The levels from one on, over prefixed operands. -/
def chainFrom (bounds : Bounds) (prefixed : Rule) (k : Nat) : Rule :=
  (operatorLevels.drop k).foldr (level bounds) prefixed

theorem chainFrom_of_some {prefixed : Rule} {k : Nat} {operators : Operators}
    (hk : operatorLevels[k]? = some operators) :
    chainFrom bounds prefixed k = level bounds operators (chainFrom bounds prefixed (k + 1)) := by
  obtain ⟨hlt, rfl⟩ := List.getElem?_eq_some_iff.mp hk
  rw [chainFrom, List.drop_eq_getElem_cons hlt]
  rfl

theorem exists_operators {k : Nat} (h : k < BinaryOp.levels) :
    ∃ operators, operatorLevels[k]? = some operators := ⟨_, List.getElem?_eq_getElem h⟩

/-- The operands that are joined go on from a left side that is derived. -/
theorem sound_joined {k : Nat} {operators : Operators} {operand : Rule}
    (hk : operatorLevels[k]? = some operators) (hoperand : Sound (.chain (k + 1)) operand)
    {start : List Lexeme} {bound : Nat} {left : Expr} {depth : Nat} {input : List Lexeme}
    {h : input.length < bound} {r : Parsed bound} (hleft : Derives (.chain k) start left input)
    (hr : joined bounds operand operators bound left depth input h = .ok r) :
    Derives (.chain k) start r.expr r.rest := by
  fun_induction joined bounds operand operators bound left depth input h with
  | case1 =>
    obtain rfl := Except.ok.inj hr
    exact hleft
  | case2 =>
    obtain rfl := Except.ok.inj hr
    exact hleft
  | case3 => exact nomatch hr
  | case4 => exact nomatch hr
  | case5 left depth l rest _ op hop right hright _ _ _ _ ih =>
    obtain ⟨htoken, rfl⟩ := (operators_eq_some hk).mp hop
    exact ih (.operation hleft htoken (hoperand rest right hright)) hr

theorem sound_level {k : Nat} {operators : Operators} {operand : Rule}
    (hk : operatorLevels[k]? = some operators) (hoperand : Sound (.chain (k + 1)) operand) :
    Sound (.chain k) (level bounds operators operand) := by
  intro input r hr
  obtain ⟨first, hfirst, hr⟩ := bind_eq_ok.mp hr
  have hlt : k < BinaryOp.levels := (List.getElem?_eq_some_iff.mp hk).1
  exact sound_joined hk hoperand (.tighter hlt (hoperand input first hfirst)) hr

theorem sound_chainFrom {prefixed : Rule} (hprefixed : Sound .prefixed prefixed) {k : Nat}
    (hk : k ≤ BinaryOp.levels) : Sound (.chain k) (chainFrom bounds prefixed k) := by
  -- Induction on the levels above, starting from the tightest.
  obtain ⟨n, hn⟩ := Nat.exists_eq_add_of_le hk
  induction n generalizing k with
  | zero =>
    obtain rfl : BinaryOp.levels = k := hn
    exact fun input r hr => .operand (hprefixed input r hr)
  | succ n ih =>
    have hlt : k < BinaryOp.levels := by omega
    obtain ⟨operators, hsome⟩ := exists_operators hlt
    rw [chainFrom_of_some hsome]
    exact sound_level hsome (ih hlt (by omega))

theorem sound_choice {chain : Rule} (hchain : Sound (.chain 0) chain)
    (hexpr : Sound .expression expression) :
    Sound .expression (choice bounds chain expression) := by
  intro input r hr
  obtain ⟨test, htest, hr⟩ := bind_eq_ok.mp hr
  have hderives := hchain input test htest
  split at hr
  · obtain rfl := Except.ok.inj hr
    exact .chain hderives
  · rename_i q yesInput hrest
    split at hr
    · rename_i hq
      obtain ⟨yes, hyes, hr⟩ := bind_eq_ok.mp hr
      obtain ⟨after, hafter, hr⟩ := bind_eq_ok.mp hr
      obtain ⟨no, hno, hr⟩ := bind_eq_ok.mp hr
      obtain ⟨depth, -, hr⟩ := bind_eq_ok.mp hr
      obtain rfl := Except.ok.inj hr
      obtain ⟨c, hcolon, hc⟩ := expect_eq_ok hafter
      have hyesDerives := hexpr yesInput yes hyes
      rw [hcolon] at hyesDerives
      rw [hrest] at hderives
      exact .conditional hderives hq hyesDerives hc (hexpr _ no hno)
    · obtain rfl := Except.ok.inj hr
      exact .chain hderives

theorem sound_withPrefixes {inner selected : Rule} (hinner : Sound .prefixed inner)
    (hselected : Sound .selection selected) :
    Sound .prefixed (withPrefixes bounds inner selected) := by
  intro input r hr
  cases input with
  | nil => exact .selection (hselected [] r hr)
  | cons l rest =>
    simp only [withPrefixes] at hr
    split at hr
    · rename_i htoken
      obtain ⟨operand, hoperand, hr⟩ := bind_eq_ok.mp hr
      obtain ⟨depth, -, hr⟩ := bind_eq_ok.mp hr
      obtain rfl := Except.ok.inj hr
      exact .prefixed htoken (hinner rest operand hoperand)
    · rename_i htoken
      obtain ⟨operand, hoperand, hr⟩ := bind_eq_ok.mp hr
      obtain ⟨depth, -, hr⟩ := bind_eq_ok.mp hr
      obtain rfl := Except.ok.inj hr
      exact .prefixed htoken (hinner rest operand hoperand)
    · exact .selection (hselected _ r hr)

end

/-! ## Nesting -/

theorem sound_exhausted (p : Phrase) (bounds : Bounds) : Sound p (exhausted bounds) :=
  fun _ _ hr => nomatch hr

theorem sound_nested (bounds : Bounds) (levels : Nat) :
    Sound .expression (expression bounds levels) ∧ Sound .prefixed (prefixed bounds levels) := by
  induction levels with
  | zero =>
    have hexpr : Sound .expression (expression bounds 0) := by
      rw [expression]
      exact sound_exhausted _ bounds
    refine ⟨hexpr, ?_⟩
    rw [prefixed]
    exact sound_withPrefixes (sound_exhausted _ bounds) (sound_selected hexpr)
  | succ levels ih =>
    have hexpr : Sound .expression (expression bounds (levels + 1)) := by
      rw [expression]
      exact sound_choice (sound_chainFrom ih.2 (Nat.zero_le _)) ih.1
    refine ⟨hexpr, ?_⟩
    rw [prefixed]
    exact sound_withPrefixes ih.2 (sound_selected hexpr)

/-- The tree that is read from a whole list of lexemes is derived from it. -/
theorem derives_of_ofLexemes {bounds : Bounds} {levels : Nat} {input : List Lexeme} {e : Expr}
    (h : ofLexemes bounds levels input = .ok e) : Derives .expression input e [] := by
  obtain ⟨whole, hwhole, h⟩ := bind_eq_ok.mp h
  have hderives := (sound_nested bounds levels).1 input whole hwhole
  split at h
  · rename_i hrest
    obtain rfl := Except.ok.inj h
    rw [hrest] at hderives
    exact hderives
  · exact nomatch h

end Expr

end Dataflow
