import SuiteScribe.Proofs.Document.Numeral
import SuiteScribe.Proofs.Lists
import SuiteScribe.Proofs.Text.Quoted

/-!
# The spelling of a node tells the node

`Node.spell` writes a node as a word and, behind it, its fields between brackets; a whole number is
its digits and a bare name is quoted.  A word ends where a byte follows that no numeral has
(`Text.Closes`), and what may follow a node, a comma, a bracket or nothing, starts with such a byte.
So the word can be read off, it tells the kind (`kindOfWord_word`), the kind tells how the fields
are written, and the fields can be read off one after the other, each up to where it ends
(`Legible.readOff`).

This needs that the number literals are written with bytes of numerals, since they are not quoted,
and that no node is foreign, since a foreign node is spelled as it likes (`Node.Legible`).  The
numerals that a document may hold are written so (`inNumeral_of_accepts`).
-/

namespace SuiteScribe

namespace Text

/-- Whether a byte may stand in a numeral: a letter or digit of ASCII, a sign, a point or an
underscore. -/
def inNumeral (b : UInt8) : Bool :=
  (48 ≤ b.toNat && b.toNat ≤ 57) || (65 ≤ b.toNat && b.toNat ≤ 90)
    || (97 ≤ b.toNat && b.toNat ≤ 122) || b == byte '+' || b == byte '-' || b == byte '.'
    || b == byte '_'

/-- The text does not go on with a byte of a numeral. -/
def Closes (t : Text) : Prop :=
  ∀ b ∈ t.head?, ¬ inNumeral b = true

theorem closes_nil : Closes [] :=
  fun _ hb => nomatch hb

theorem closes_cons {b : UInt8} (h : inNumeral b = false) (t : Text) : Closes (b :: t) := by
  intro c hc
  cases hc
  exact Bool.eq_false_iff.1 h

theorem Closes.append {t u : Text} (ht : t.Closes) (hu : u.Closes) : (t ++ u).Closes := by
  rcases t with _ | ⟨b, t⟩
  · exact hu
  · exact closes_cons (Bool.eq_false_iff.2 (ht b rfl)) _

theorem inNumeral_of_digit {b : UInt8} (h : 48 ≤ b.toNat ∧ b.toNat ≤ 57) : inNumeral b = true := by
  simp [inNumeral, h]

theorem ofInt_ne_nil (i : Int) : ofInt i ≠ [] := by
  cases i <;> simp [ofInt, ofNat]

/-- A whole number is written with bytes of numerals. -/
theorem inNumeral_of_mem_ofInt (i : Int) : ∀ b ∈ ofInt i, inNumeral b = true := by
  cases i with
  | ofNat n => exact fun b hb => inNumeral_of_digit ((Integer.isDigits_ofNat n).2 b hb)
  | negSucc n =>
    exact List.forall_mem_cons.2
      ⟨rfl, fun b hb => inNumeral_of_digit ((Integer.isDigits_ofNat (n + 1)).2 b hb)⟩

/-- No byte of a whole number is a letter. -/
theorem toNat_le_of_mem_ofInt (i : Int) : ∀ b ∈ ofInt i, b.toNat ≤ 57 := by
  cases i with
  | ofNat n => exact fun b hb => ((Integer.isDigits_ofNat n).2 b hb).2
  | negSucc n =>
    exact List.forall_mem_cons.2
      ⟨by decide, fun b hb => ((Integer.isDigits_ofNat (n + 1)).2 b hb).2⟩

/-- Whole numbers that are written alike are the same. -/
theorem ofInt_inj {i j : Int} (h : ofInt i = ofInt j) : i = j := by
  have hi := (Integer.spells_iff_splitSign.1 (Integer.spells_ofInt i)).2
  have hj := (Integer.spells_iff_splitSign.1 (Integer.spells_ofInt j)).2
  rw [hi, hj, h]

section Numerals

variable {base : Nat} {b : UInt8} {t : Text}

theorem inNumeral_of_isDigit (h : Real.isDigit base b = true) : inNumeral b = true := by
  obtain ⟨d, hd, -⟩ := Real.isDigit_eq_true_iff.1 h
  simp only [Integer.digit?] at hd
  split_ifs at hd with hdecimal hlower hupper
  · simp [inNumeral, hdecimal]
  · simp [inNumeral, hlower]
  · simp [inNumeral, hupper]

theorem inNumeral_of_fold (h : inNumeral (Real.fold b) = true) : inNumeral b = true := by
  unfold Real.fold at h
  split_ifs at h with hupper
  · simp [inNumeral, hupper]
  · exact h

theorem inNumeral_of_continuesNumber (h : Json.continuesNumber b = true) : inNumeral b = true := by
  simp only [Json.continuesNumber, Bool.or_eq_true, Bool.and_eq_true, decide_eq_true_eq,
    beq_iff_eq] at h
  rcases h with ((((h | rfl) | rfl) | rfl) | rfl) | rfl
  · exact inNumeral_of_digit h
  all_goals rfl

theorem inNumeral_of_plain (h : ∀ b ∈ Real.plain t, inNumeral b = true) :
    ∀ b ∈ t, inNumeral b = true := by
  intro b hb
  by_cases hu : b = byte '_'
  · rw [hu]
    rfl
  · exact h b (List.mem_filter.2 ⟨hb, by simpa using hu⟩)

theorem inNumeral_of_isSign {sign : Text} (h : Real.IsSign sign) :
    ∀ b ∈ sign, inNumeral b = true := by
  cases h <;> simp only [List.mem_singleton, forall_eq, List.not_mem_nil, false_imp_iff,
    implies_true] <;> rfl

theorem inNumeral_of_spelled {m : Real.Mantissa} (h : m.Spelled base t) :
    ∀ b ∈ t, inNumeral b = true := by
  cases h with
  | whole h => exact fun b hb => inNumeral_of_isDigit (h b hb)
  | pointed hd hf =>
    refine List.forall_mem_append.2 ⟨fun b hb => inNumeral_of_isDigit (hd b hb), ?_⟩
    exact List.forall_mem_cons.2 ⟨rfl, fun b hb => inNumeral_of_isDigit (hf b hb)⟩

/-- A mantissa, the letter and an exponent have only bytes of numerals. -/
theorem inNumeral_of_scientific {letter : UInt8} {m : Real.Mantissa} {e : ℤ}
    (hletter : inNumeral letter = true) (h : Real.Scientific base letter t m e) :
    ∀ b ∈ t, inNumeral b = true := by
  obtain ⟨hm, -, hmark, he⟩ := h
  refine List.forall_mem_append.2 ⟨inNumeral_of_plain (inNumeral_of_spelled hm), ?_⟩
  refine List.forall_mem_cons.2 ⟨inNumeral_of_fold (hmark ▸ hletter), inNumeral_of_plain ?_⟩
  exact fun b hb => inNumeral_of_continuesNumber (Json.continuesNumber_of_spells he b hb)

theorem inNumeral_of_real_spells {q : ℚ} (h : Real.Spells t q) : ∀ b ∈ t, inNumeral b = true := by
  cases h with
  | fixed h => exact inNumeral_of_plain (inNumeral_of_spelled h)
  | decimal h => exact inNumeral_of_scientific rfl h
  | hexadecimal hx h =>
    refine List.forall_mem_cons.2 ⟨rfl, List.forall_mem_cons.2 ⟨?_, inNumeral_of_scientific rfl h⟩⟩
    exact inNumeral_of_fold (hx ▸ rfl)

theorem inNumeral_of_map_fold {name : Text} (hname : name.all inNumeral = true)
    (h : t.map Real.fold = name) : ∀ b ∈ t, inNumeral b = true := by
  subst h
  rw [List.all_map, List.all_eq_true] at hname
  exact fun b hb => inNumeral_of_fold (hname b hb)

theorem inNumeral_of_isName (h : Real.IsName t) : ∀ b ∈ t, inNumeral b = true := by
  rcases h with h | ⟨sign, u, hsign, rfl, h⟩
  · exact inNumeral_of_map_fold rfl h
  · refine List.forall_mem_append.2 ⟨inNumeral_of_isSign hsign, ?_⟩
    rcases h with h | h <;> exact inNumeral_of_map_fold rfl h

/-- What the reader takes for a number is written with bytes of numerals. -/
theorem inNumeral_of_accepts (h : Real.accepts t = true) : ∀ b ∈ t, inNumeral b = true := by
  rcases Real.accepts_iff.1 h with hname | ⟨q, ⟨sign, u, hsign, rfl, hu⟩, -⟩
  · exact inNumeral_of_isName hname
  · exact List.forall_mem_append.2 ⟨inNumeral_of_isSign hsign, inNumeral_of_real_spells hu⟩

end Numerals

end Text

namespace Node

open Text (byte)

/-- Whether the node can be told from its spelling: no node in it is foreign, and its number
literals are written with bytes of numerals. -/
structure Legible (n : Node) : Prop where
  native : ∀ kind typeName shown, ¬ Occurs (foreign kind typeName shown) n
  numerals : ∀ value, Occurs (number value) n → ∀ b ∈ value, Text.inNumeral b = true

/-- What stands in a node that can be told from its spelling can be told from its own. -/
theorem Legible.of_mem_children {n c : Node} (h : n.Legible) (hc : c ∈ n.children) :
    c.Legible where
  native kind typeName shown hocc :=
    h.native kind typeName shown (occurs_iff.2 (.inr ⟨c, hc, hocc⟩))
  numerals value hocc := h.numerals value (occurs_iff.2 (.inr ⟨c, hc, hocc⟩))

theorem Legible.ne_foreign {n : Node} (h : n.Legible) (kind typeName shown : Text) :
    n ≠ foreign kind typeName shown :=
  fun heq => h.native kind typeName shown (heq ▸ .refl)

/-- A node can be told from its spelling if it is not foreign, no number that is written otherwise,
and its children can be told. -/
theorem legible_of_children {n : Node}
    (hnative : ∀ kind typeName shown, n ≠ foreign kind typeName shown)
    (hnumerals : ∀ value, n = number value → ∀ b ∈ value, Text.inNumeral b = true)
    (hc : ∀ c ∈ n.children, c.Legible) : n.Legible where
  native kind typeName shown hocc := by
    rcases occurs_iff.1 hocc with h | ⟨c, hmem, hocc⟩
    · exact hnative kind typeName shown h
    · exact (hc c hmem).native kind typeName shown hocc
  numerals value hocc := by
    rcases occurs_iff.1 hocc with h | ⟨c, hmem, hocc⟩
    · exact hnumerals value h
    · exact (hc c hmem).numerals value hocc

section Word

/-- The kind that the spelling of a node shows. -/
def shownKind? : Node → Option Kind
  | absent | foreign _ _ _ => none
  | importOf _ => some .importOf
  | assignment _ _ => some .assignment
  | assertion _ _ => some .assertion
  | call _ _ => some .call
  | member _ _ => some .member
  | sequence _ => some .sequence
  | ifPyd _ => some .ifPyd
  | ifPynih _ => some .ifPynih
  | shouldThrow _ _ => some .shouldThrow
  | number _ => some .number
  | string _ => some .string
  | bytes _ => some .bytes
  | int _ => some .int
  | str _ => some .str

/-- The word that the spelling of a node starts with, unless the node is foreign. -/
def word : Node → Text
  | absent => text "None"
  | int value => Text.ofInt value
  | str _ | foreign _ _ _ => []
  | n => n.kindName

/-- The kind of node whose spelling starts with the word: a word that names no kind is a whole
number. -/
def kindOfWord (w : Text) : Option Kind :=
  if w = [] then some .str
  else if w = text "None" then none
  else some ((Kind.ofName? w).getD .int)

/-- Every name of a kind has a letter in it, which a whole number has not. -/
theorem exists_mem_name (k : Kind) : ∃ b ∈ k.name, 57 < b.toNat := by
  have h : k.name.any (57 < ·.toNat) = true := by cases k <;> decide
  simpa only [decide_eq_true_eq] using List.any_eq_true.1 h

theorem kindOfWord_ofInt (i : Int) : kindOfWord (Text.ofInt i) = some .int := by
  have hne : ∀ t : Text, (∃ b ∈ t, 57 < b.toNat) → t ≠ Text.ofInt i := by
    rintro t ⟨b, hb, hlt⟩ rfl
    exact absurd (Text.toNat_le_of_mem_ofInt i b hb) (by omega)
  have hnone : Text.ofInt i ≠ text "None" :=
    (hne _ ⟨_, List.mem_cons_self, by decide⟩).symm
  rw [kindOfWord, if_neg (Text.ofInt_ne_nil i), if_neg hnone,
    Kind.ofName?_eq_none_iff.2 fun k => hne _ (exists_mem_name k)]
  rfl

theorem kindOfWord_of_name {w : Text} {k : Kind} (h : k.name = w) : kindOfWord w = some k := by
  subst h
  have hnil : k.name ≠ [] := by cases k <;> decide
  have hnone : k.name ≠ text "None" := by cases k <;> decide
  rw [kindOfWord, if_neg hnil, if_neg hnone, Kind.ofName?_name, Option.getD_some]

/-- The word of a node tells its kind. -/
theorem kindOfWord_word {n : Node} (h : n.Legible) : kindOfWord n.word = n.shownKind? := by
  cases n with
  | int value => exact kindOfWord_ofInt value
  | absent | str => rfl
  | foreign => exact absurd rfl (h.ne_foreign _ _ _)
  | _ => exact kindOfWord_of_name rfl

theorem inNumeral_of_mem_word (n : Node) : ∀ b ∈ n.word, Text.inNumeral b = true := by
  cases n with
  | int value => exact Text.inNumeral_of_mem_ofInt value
  | _ => exact List.all_eq_true.1 rfl

/-- A spelling starts with the word of the node, and goes on with what ends a word. -/
theorem exists_spell_eq_word_append {n : Node} (h : n.Legible) :
    ∃ t, n.spell = n.word ++ t ∧ t.Closes := by
  cases n with
  | absent | int => exact ⟨[], (List.append_nil _).symm, Text.closes_nil⟩
  | foreign => exact absurd rfl (h.ne_foreign _ _ _)
  | _ => exact ⟨_, rfl, Text.closes_cons rfl _⟩

/-- Nodes that are spelled alike, up to where they end, are of one kind. -/
theorem shownKind?_eq_of_spell_append {a b : Node} (ha : a.Legible) (hb : b.Legible) {t u : Text}
    (ht : t.Closes) (hu : u.Closes) (h : a.spell ++ t = b.spell ++ u) :
    a.shownKind? = b.shownKind? := by
  obtain ⟨x, hx, hxc⟩ := exists_spell_eq_word_append ha
  obtain ⟨y, hy, hyc⟩ := exists_spell_eq_word_append hb
  rw [hx, hy, List.append_assoc, List.append_assoc] at h
  have hword := (append_inj_of_head (inNumeral_of_mem_word a) (inNumeral_of_mem_word b)
    (hxc.append ht) (hyc.append hu) h).1
  rw [← kindOfWord_word ha, hword, kindOfWord_word hb]

end Word

section Fields

/-- The node can be read off a text that starts with its spelling. -/
structure ReadOff (a : Node) : Prop where
  legible : a.Legible
  append_inj : ∀ {b : Node} {t u : Text}, b.Legible → t.Closes → u.Closes →
    a.spell ++ t = b.spell ++ u → a = b ∧ t = u

/-- What follows the first of the nodes between square brackets. -/
def closing : List Node → Text
  | [] => text "]"
  | n :: rest => text ", " ++ n.spell ++ closing rest

theorem closes_closing_append (ns : List Node) (t : Text) : (closing ns ++ t).Closes := by
  cases ns with
  | nil => exact Text.closes_cons rfl _
  | cons n ns => exact Text.closes_cons rfl _

theorem bracket_spellAll_cons (n : Node) (ns : List Node) :
    bracket (spellAll (n :: ns)) = text "[" ++ n.spell ++ closing ns := by
  induction ns generalizing n with
  | nil => simp [bracket, spellAll, closing]
  | cons m ns ih =>
    have := ih m
    simp only [bracket, spellAll, List.append_assoc, List.append_cancel_left_eq,
      List.intercalate_cons_cons, closing] at this ⊢
    rw [this]

/-- The rest of a list, from behind one of its items on, can be read off. -/
theorem closing_append_inj {ns ms : List Node} (hn : ∀ n ∈ ns, n.ReadOff)
    (hm : ∀ m ∈ ms, m.Legible) {t u : Text} (h : closing ns ++ t = closing ms ++ u) :
    ns = ms ∧ t = u := by
  induction ns generalizing ms with
  | nil =>
    cases ms with
    | nil => exact ⟨rfl, List.append_cancel_left h⟩
    | cons m ms => cases h
  | cons n ns ih =>
    cases ms with
    | nil => cases h
    | cons m ms =>
      rw [closing, closing] at h
      simp only [List.append_assoc, List.append_cancel_left_eq] at h
      obtain ⟨hhead, hrest⟩ := List.forall_mem_cons.1 hn
      obtain ⟨hlegible, hlegibles⟩ := List.forall_mem_cons.1 hm
      obtain ⟨rfl, htail⟩ :=
        hhead.append_inj hlegible (closes_closing_append ns t) (closes_closing_append ms u) h
      obtain ⟨rfl, rfl⟩ := ih hrest hlegibles htail
      exact ⟨rfl, rfl⟩

/-- No spelling starts with the bracket that closes a list. -/
theorem exists_spell_eq_cons {n : Node} (h : n.Legible) :
    ∃ b t, n.spell = b :: t ∧ b ≠ byte ']' := by
  cases n with
  | foreign => exact absurd rfl (h.ne_foreign _ _ _)
  | int value =>
    obtain ⟨b, t, h⟩ := List.exists_cons_of_ne_nil (Text.ofInt_ne_nil value)
    refine ⟨b, t, h, ?_⟩
    rintro rfl
    cases Text.inNumeral_of_mem_ofInt value _ (h ▸ List.mem_cons_self)
  | _ => exact ⟨_, _, rfl, by decide⟩

/-- A list that has a first node is not taken for an empty one. -/
theorem bracket_nil_append_ne {n : Node} (h : n.Legible) (ns : List Node) (t u : Text) :
    bracket (spellAll []) ++ t ≠ bracket (spellAll (n :: ns)) ++ u := by
  obtain ⟨b, x, hx, hb⟩ := exists_spell_eq_cons h
  rw [bracket_spellAll_cons, hx]
  intro h
  cases h
  exact hb rfl

/-- A list of nodes can be read off, item by item. -/
theorem bracket_append_inj {ns ms : List Node} (hn : ∀ n ∈ ns, n.ReadOff)
    (hm : ∀ m ∈ ms, m.Legible) {t u : Text}
    (h : bracket (spellAll ns) ++ t = bracket (spellAll ms) ++ u) : ns = ms ∧ t = u := by
  rcases ns with _ | ⟨n, ns⟩
  · rcases ms with _ | ⟨m, ms⟩
    · exact ⟨rfl, List.append_cancel_left h⟩
    · exact absurd h (bracket_nil_append_ne (hm m List.mem_cons_self) ms t u)
  · rcases ms with _ | ⟨m, ms⟩
    · exact absurd h.symm (bracket_nil_append_ne (hn n List.mem_cons_self).legible ns u t)
    · rw [bracket_spellAll_cons, bracket_spellAll_cons] at h
      refine closing_append_inj hn hm ?_
      simpa only [closing, List.append_assoc, List.append_cancel_left_eq] using h

variable {l l' r r' : Node} {ns ms : List Node} {opening sep t u : Text}

theorem closes_parenthesis (t : Text) : (text ")" ++ t).Closes :=
  Text.closes_cons rfl t

theorem quoted_append_inj {x y : Text}
    (h : opening ++ x.quote ++ text ")" ++ t = opening ++ y.quote ++ text ")" ++ u) :
    x = y ∧ t = u := by
  simp only [List.append_assoc, List.append_cancel_left_eq] at h
  obtain ⟨rfl, hrest⟩ := Text.quote_append_inj h
  exact ⟨rfl, List.append_cancel_left hrest⟩

theorem list_append_inj (hn : ∀ n ∈ ns, n.ReadOff) (hm : ∀ m ∈ ms, m.Legible)
    (h : opening ++ bracket (spellAll ns) ++ text ")" ++ t
      = opening ++ bracket (spellAll ms) ++ text ")" ++ u) : ns = ms ∧ t = u := by
  simp only [List.append_assoc, List.append_cancel_left_eq] at h
  obtain ⟨rfl, hrest⟩ := bracket_append_inj hn hm h
  exact ⟨rfl, List.append_cancel_left hrest⟩

theorem number_append_inj {x y : Text} (hx : ∀ b ∈ x, Text.inNumeral b = true)
    (hy : ∀ b ∈ y, Text.inNumeral b = true)
    (h : opening ++ x ++ text ")" ++ t = opening ++ y ++ text ")" ++ u) : x = y ∧ t = u := by
  simp only [List.append_assoc, List.append_cancel_left_eq] at h
  obtain ⟨rfl, hrest⟩ := append_inj_of_head hx hy (closes_parenthesis t) (closes_parenthesis u) h
  exact ⟨rfl, List.append_cancel_left hrest⟩

/-- Two fields that are nodes can be read off, the first up to what separates them. -/
theorem pair_append_inj (hc : ∀ c ∈ [l, r], c.ReadOff) (hc' : ∀ c ∈ [l', r'], c.Legible)
    (h : opening ++ l.spell ++ sep ++ r.spell ++ text ")" ++ t
      = opening ++ l'.spell ++ sep ++ r'.spell ++ text ")" ++ u)
    (hsep : ∀ x, (sep ++ x).Closes) : (l = l' ∧ r = r') ∧ t = u := by
  rw [List.forall_mem_cons, List.forall_mem_singleton] at hc hc'
  simp only [List.append_assoc, List.append_cancel_left_eq] at h
  obtain ⟨rfl, hrest⟩ := hc.1.append_inj hc'.1 (hsep _) (hsep _) h
  obtain ⟨rfl, hend⟩ := hc.2.append_inj hc'.2 (closes_parenthesis t) (closes_parenthesis u)
    (List.append_cancel_left hrest)
  exact ⟨⟨rfl, rfl⟩, List.append_cancel_left hend⟩

/-- A field that is a node and one that is a list of nodes can be read off. -/
theorem headed_append_inj (hn : ∀ c ∈ l :: ns, c.ReadOff) (hm : ∀ c ∈ l' :: ms, c.Legible)
    (h : opening ++ l.spell ++ sep ++ bracket (spellAll ns) ++ text ")" ++ t
      = opening ++ l'.spell ++ sep ++ bracket (spellAll ms) ++ text ")" ++ u)
    (hsep : ∀ x, (sep ++ x).Closes) : (l = l' ∧ ns = ms) ∧ t = u := by
  obtain ⟨hhead, hns⟩ := List.forall_mem_cons.1 hn
  obtain ⟨hlegible, hms⟩ := List.forall_mem_cons.1 hm
  simp only [List.append_assoc, List.append_cancel_left_eq] at h
  obtain ⟨rfl, hrest⟩ := hhead.append_inj hlegible (hsep _) (hsep _) h
  obtain ⟨rfl, hend⟩ := bracket_append_inj hns hms (List.append_cancel_left hrest)
  exact ⟨⟨rfl, rfl⟩, List.append_cancel_left hend⟩

end Fields

/-- The kind tells how the fields are written, and the fields can be read off if the children
can. -/
theorem readOff_of_children {n : Node} (hn : n.Legible) (ih : ∀ c ∈ n.children, c.ReadOff) :
    n.ReadOff := by
  refine ⟨hn, fun {b t u} hb ht hu h => ?_⟩
  -- The words agree, so the nodes are of one kind and their fields are written alike.
  have hkind := shownKind?_eq_of_spell_append hn hb ht hu h
  have hfields : ∀ c ∈ b.children, c.Legible := fun _ => hb.of_mem_children
  cases n with
  | absent =>
    cases b with
    | absent => exact ⟨rfl, List.append_cancel_left h⟩
    | foreign => exact absurd rfl (hb.ne_foreign _ _ _)
    | _ => cases hkind
  | importOf x =>
    cases b with
    | importOf y =>
      rw [spell, spell] at h
      obtain ⟨rfl, rfl⟩ := quoted_append_inj h
      exact ⟨rfl, rfl⟩
    | _ => cases hkind
  | assignment l r =>
    cases b with
    | assignment l' r' =>
      rw [spell, spell] at h
      obtain ⟨⟨rfl, rfl⟩, rfl⟩ := pair_append_inj ih hfields h fun _ => Text.closes_cons rfl _
      exact ⟨rfl, rfl⟩
    | _ => cases hkind
  | assertion l r =>
    cases b with
    | assertion l' r' =>
      rw [spell, spell] at h
      obtain ⟨⟨rfl, rfl⟩, rfl⟩ := pair_append_inj ih hfields h fun _ => Text.closes_cons rfl _
      exact ⟨rfl, rfl⟩
    | _ => cases hkind
  | call l ns =>
    cases b with
    | call l' ms =>
      rw [spell, spell] at h
      obtain ⟨⟨rfl, rfl⟩, rfl⟩ := headed_append_inj ih hfields h fun _ => Text.closes_cons rfl _
      exact ⟨rfl, rfl⟩
    | _ => cases hkind
  | member l r =>
    cases b with
    | member l' r' =>
      rw [spell, spell] at h
      obtain ⟨⟨rfl, rfl⟩, rfl⟩ := pair_append_inj ih hfields h fun _ => Text.closes_cons rfl _
      exact ⟨rfl, rfl⟩
    | _ => cases hkind
  | sequence ns =>
    cases b with
    | sequence ms =>
      rw [spell, spell] at h
      obtain ⟨rfl, rfl⟩ := list_append_inj ih hfields h
      exact ⟨rfl, rfl⟩
    | _ => cases hkind
  | ifPyd ns =>
    cases b with
    | ifPyd ms =>
      rw [spell, spell] at h
      obtain ⟨rfl, rfl⟩ := list_append_inj ih hfields h
      exact ⟨rfl, rfl⟩
    | _ => cases hkind
  | ifPynih ns =>
    cases b with
    | ifPynih ms =>
      rw [spell, spell] at h
      obtain ⟨rfl, rfl⟩ := list_append_inj ih hfields h
      exact ⟨rfl, rfl⟩
    | _ => cases hkind
  | shouldThrow l ns =>
    cases b with
    | shouldThrow l' ms =>
      rw [spell, spell] at h
      obtain ⟨⟨rfl, rfl⟩, rfl⟩ := headed_append_inj ih hfields h fun _ => Text.closes_cons rfl _
      exact ⟨rfl, rfl⟩
    | _ => cases hkind
  | number x =>
    cases b with
    | number y =>
      rw [spell, spell] at h
      obtain ⟨rfl, rfl⟩ := number_append_inj (hn.numerals x .refl) (hb.numerals y .refl) h
      exact ⟨rfl, rfl⟩
    | _ => cases hkind
  | string x =>
    cases b with
    | string y =>
      rw [spell, spell] at h
      obtain ⟨rfl, rfl⟩ := quoted_append_inj h
      exact ⟨rfl, rfl⟩
    | _ => cases hkind
  | bytes x =>
    cases b with
    | bytes y =>
      rw [spell, spell] at h
      obtain ⟨rfl, rfl⟩ := quoted_append_inj h
      exact ⟨rfl, rfl⟩
    | _ => cases hkind
  | int i =>
    cases b with
    | int j =>
      rw [spell, spell] at h
      obtain ⟨hij, rfl⟩ := append_inj_of_head (Text.inNumeral_of_mem_ofInt i)
        (Text.inNumeral_of_mem_ofInt j) ht hu h
      exact ⟨congrArg int (Text.ofInt_inj hij), rfl⟩
    | _ => cases hkind
  | str x =>
    cases b with
    | str y =>
      rw [spell, spell] at h
      obtain ⟨rfl, rfl⟩ := Text.quote_append_inj h
      exact ⟨rfl, rfl⟩
    | _ => cases hkind
  | foreign => exact absurd rfl (hn.ne_foreign _ _ _)

/-- A node whose spelling tells it can be read off wherever it stands. -/
theorem Legible.readOff {n : Node} (hn : n.Legible) : n.ReadOff := by
  induction n using induction_children with
  | h n ih => exact readOff_of_children hn fun c hc => ih c hc (hn.of_mem_children hc)

theorem spell_inj {a b : Node} (ha : a.Legible) (hb : b.Legible) (h : a.spell = b.spell) :
    a = b :=
  (ha.readOff.append_inj hb Text.closes_nil Text.closes_nil (congrArg (· ++ []) h)).1

section Marker

theorem kindName_eq_word {n : Node} (hn : n.Legible) (h : n.isMarked = true) :
    n.kindName = n.word := by
  cases n with
  | ifPyd | ifPynih | shouldThrow => rfl
  | foreign => exact absurd rfl (hn.ne_foreign _ _ _)
  | _ => cases h

theorem render_of_isMarked {n : Node} (h : n.isMarked = true) (modules : List Text) :
    n.render modules = .ok (marker n.kindName n.spell) := by
  cases n with
  | ifPyd | ifPynih | shouldThrow => rw [render]; rfl
  | foreign kind typeName shown =>
    rw [render, renderForeign, kindName, spell]
    rcases hk : Kind.ofName? kind with _ | k <;> simp only [isMarked, hk] at h
    · cases h
    · exact if_pos h
  | _ => cases h

/-- The marker of a node tells its spelling, since its kind is a single word. -/
theorem marker_inj {a b : Node} (ha : a.Legible) (hb : b.Legible) (hma : a.isMarked = true)
    (hmb : b.isMarked = true) (h : marker a.kindName a.spell = marker b.kindName b.spell) :
    a.spell = b.spell := by
  have hspace : ∀ t, (text " " ++ t).Closes := fun _ => Text.closes_cons rfl _
  rw [kindName_eq_word ha hma, kindName_eq_word hb hmb, marker, marker] at h
  simp only [List.append_assoc, List.append_cancel_left_eq] at h
  exact List.append_cancel_left (append_inj_of_head (inNumeral_of_mem_word a)
    (inNumeral_of_mem_word b) (hspace _) (hspace _) h).2

end Marker

/-- Two nodes that can be told from their spellings are the same if they are spelled alike, and so
are two of them that are kept as markers if the markers are alike.  What a document may give as a
number literal is written with bytes of numerals. -/
theorem spelling_unambiguous :
    (∀ a b : Node, a.Legible → b.Legible → (a.spell = b.spell ↔ a = b))
      ∧ (∀ a b : Node, a.Legible → b.Legible → a.isMarked = true → b.isMarked = true →
        ∀ modules, (a.render modules = b.render modules ↔ a = b))
      ∧ (∀ value, Real.accepts value = true →
        value ≠ [] ∧ ∀ b ∈ value, Text.inNumeral b = true)
      ∧ ∀ numeral : Json.Numeral,
        numeral.toText ≠ [] ∧ ∀ b ∈ numeral.toText, Text.inNumeral b = true := by
  refine ⟨fun a b ha hb => ⟨spell_inj ha hb, congrArg spell⟩, ?_, ?_, ?_⟩
  · intro a b ha hb hma hmb modules
    refine ⟨fun h => ?_, congrArg (render modules)⟩
    rw [render_of_isMarked hma, render_of_isMarked hmb] at h
    exact spell_inj ha hb (marker_inj ha hb hma hmb (Except.ok.inj h))
  · intro value h
    refine ⟨?_, Text.inNumeral_of_accepts h⟩
    rintro rfl
    cases h
  · intro numeral
    refine ⟨numeral.toText_ne_nil, fun b hb => ?_⟩
    exact Text.inNumeral_of_continuesNumber (numeral.continuesNumber_of_mem_toText b hb)

/-- A marker around one name, which has the quotes and the comma of two names in it. -/
def oneName : Node := .ifPyd [.str (text "a\", \"b"), .number (text "1e5")]

def twoNames : Node := .ifPyd [.str (text "a"), .str (text "b"), .number (text "1e5")]

theorem legible_str (value : Text) : (str value).Legible :=
  legible_of_children (by simp) (by simp) (List.forall_mem_nil _)

theorem legible_number {value : Text} (h : value.all Text.inNumeral = true) :
    (number value).Legible := by
  refine legible_of_children (by simp) ?_ (List.forall_mem_nil _)
  rintro _ ⟨⟩
  exact List.all_eq_true.1 h

theorem legible_ifPyd {body : List Node} (h : ∀ c ∈ body, c.Legible) : (ifPyd body).Legible :=
  legible_of_children (by simp) (by simp) h

theorem legible_oneName : oneName.Legible :=
  legible_ifPyd (by simpa using ⟨legible_str _, legible_number rfl⟩)

theorem legible_twoNames : twoNames.Legible :=
  legible_ifPyd (by simpa using ⟨legible_str _, legible_str _, legible_number rfl⟩)

theorem spelling_unambiguous_oneName :
    oneName.Legible ∧ twoNames.Legible ∧ oneName.spell ≠ twoNames.spell
      ∧ ∀ modules, oneName.render modules ≠ twoNames.render modules := by
  have hne : oneName ≠ twoNames := fun h => by
    cases congrArg (fun n => n.children.length) h
  refine ⟨legible_oneName, legible_twoNames, ?_, fun modules => ?_⟩
  · exact (spelling_unambiguous.1 _ _ legible_oneName legible_twoNames).not.2 hne
  · exact (spelling_unambiguous.2.1 _ _ legible_oneName legible_twoNames rfl rfl modules).not.2 hne

end Node

end SuiteScribe
