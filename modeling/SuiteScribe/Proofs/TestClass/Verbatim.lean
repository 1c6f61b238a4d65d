import SuiteScribe.Proofs.Text.Case
import SuiteScribe.Proofs.TestClass.OneLine

/-!
# What stays verbatim in a line of code

A literal is quoted and a node without a counterpart is kept as a marker, and both are put into the
line of the node around them as they are, with one exception: what stands as the name of a member
is capitalized with the name.  So a line has every quoted text and every marker verbatim that is in
no name (`iterate_lowercase_infix_render` at 0), and any other in lower case, once for every name it
is in.
-/

namespace SuiteScribe

namespace Node

/-- What a node puts into a line for a reader to find there: the quoted text of a literal, or a
marker with all that stands in it. -/
def verbatim? : Node → Option Text
  | string value => some value.quote
  | bytes value => some value.quote
  | ifPyd body => some (marker Kind.ifPyd.name (ifPyd body).spell)
  | ifPynih body => some (marker Kind.ifPynih.name (ifPynih body).spell)
  | shouldThrow exception body =>
    some (marker Kind.shouldThrow.name (shouldThrow exception body).spell)
  | _ => none

/-- The first node is the second or is rendered with it at some depth, inside of so many names of
members. -/
inductive ShownInNames (m : Node) : Nat → Node → Prop
  | here : ShownInNames m 0 m
  | inOwner {owner name : Node} {k : Nat} (h : ShownInNames m k owner) :
    ShownInNames m k (.member owner name)
  | inName {owner name : Node} {k : Nat} (h : ShownInNames m k name) :
    ShownInNames m (k + 1) (.member owner name)
  | inPart {n : Node} {p : Field × Node} {k : Nat} (hn : ∀ owner name, n ≠ .member owner name)
    (hp : p ∈ n.parts) (h : ShownInNames m k p.2) : ShownInNames m k n

theorem shown_iff_exists_shownInNames {m n : Node} : Shown m n ↔ ∃ k, ShownInNames m k n := by
  constructor
  · intro h
    induction n using induction_parts with
    | h n ih =>
      rcases shown_iff.1 h with rfl | ⟨p, hp, h⟩
      · exact ⟨0, .here⟩
      · obtain ⟨k, hk⟩ := ih p hp h
        by_cases hn : ∃ owner name, n = .member owner name
        · obtain ⟨owner, name, rfl⟩ := hn
          rcases List.mem_pair.1 hp with rfl | rfl
          · exact ⟨k, .inOwner hk⟩
          · exact ⟨k + 1, .inName hk⟩
        · exact ⟨k, .inPart (fun owner name heq => hn ⟨owner, name, heq⟩) hp hk⟩
  · rintro ⟨k, h⟩
    induction h with
    | here => exact .refl
    | inOwner _ ih => exact shown_iff.2 (.inr ⟨_, List.mem_cons_self, ih⟩)
    | inName _ ih => exact shown_iff.2 (.inr ⟨_, List.mem_cons_of_mem _ List.mem_cons_self, ih⟩)
    | inPart _ hp _ ih => exact shown_iff.2 (.inr ⟨_, hp, ih⟩)

section Enclosed

theorem enclosed_quote (t : Text) : t.quote.Enclosed :=
  ⟨Text.byte '"', _, Text.byte '"', rfl, by decide, by decide⟩

theorem enclosed_marker (kind t : Text) : (marker kind (t ++ text ")")).Enclosed := by
  refine ⟨Text.byte '/', text "/ TODO: " ++ kind ++ text " " ++ t, Text.byte ')', ?_, by decide,
    by decide⟩
  have hopen : text "// TODO: " = Text.byte '/' :: text "/ TODO: " := rfl
  have hclose : text ")" = [Text.byte ')'] := rfl
  simp only [marker, hopen, hclose, List.cons_append, List.append_assoc]

theorem enclosed_of_verbatim? {m : Node} {v : Text} (h : m.verbatim? = some v) : v.Enclosed := by
  cases m with
  | string value | bytes value =>
    cases h
    exact enclosed_quote value
  | ifPyd | ifPynih | shouldThrow =>
    simp only [verbatim?, spell, Option.some.injEq] at h
    subst h
    exact enclosed_marker _ _
  | _ => cases h

end Enclosed

section Render

variable (modules : List Text)

/-- The verbatim form of a node is in its own code. -/
theorem verbatim?_infix_render {m : Node} {v t : Text} (hv : m.verbatim? = some v)
    (h : m.render modules = .ok t) : v <:+: t := by
  cases m with
  | string | ifPyd | ifPynih | shouldThrow =>
    cases hv
    cases h
    exact List.infix_rfl
  | bytes value =>
    cases hv
    cases h
    exact (List.suffix_append _ _).isInfix
  | _ => cases hv

/-- Outside of a member, the texts of the parts are put together as they are. -/
theorem infix_assemble {n : Node} (hc : n.isComposite = true)
    (hn : ∀ owner name, n ≠ .member owner name) {xs : List Text}
    (hl : n.parts.length = xs.length) {x : Text} (hx : x ∈ xs) :
    x <:+: assemble modules n xs := by
  cases n with
  | assignment =>
    obtain ⟨l, r, rfl⟩ := List.length_eq_two.1 hl.symm
    rcases List.mem_pair.1 hx with rfl | rfl
    · exact ⟨text "var ", text " = " ++ r, by simp [assemble]⟩
    · exact ⟨text "var " ++ l ++ text " = ", [], by simp [assemble]⟩
  | assertion =>
    obtain ⟨actual, expected, rfl⟩ := List.length_eq_two.1 hl.symm
    rcases List.mem_pair.1 hx with rfl | rfl
    · exact ⟨text "Assert.AreEqual(" ++ expected ++ text ", ", text ")", by simp [assemble]⟩
    · exact ⟨text "Assert.AreEqual(", text ", " ++ actual ++ text ")", by simp [assemble]⟩
  | call =>
    rcases xs with _ | ⟨f, args⟩
    · cases hl
    · rcases List.mem_cons.1 hx with rfl | hx
      · exact ⟨[], text "(" ++ (text ", ").intercalate args ++ text ")", by simp [assemble]⟩
      · exact (infix_intercalate (text ", ") hx).trans ⟨f ++ text "(", text ")", by simp [assemble]⟩
  | sequence => exact (infix_intercalate (text ", ") hx).trans ⟨text "\x7b", text "\x7d", rfl⟩
  | member owner name => exact absurd rfl (hn owner name)
  | _ => cases hc

theorem exists_render_of_isComposite {n : Node} (hc : n.isComposite = true) {t : Text}
    (h : n.render modules = .ok t) :
    ∃ xs, List.Forall₂ (fun p x => p.2.render modules = .ok x) n.parts xs
      ∧ t = assemble modules n xs := by
  rw [render_of_isComposite modules hc] at h
  obtain ⟨xs, hxs, h⟩ := bind_eq_ok_iff.1 h
  cases h
  exact ⟨xs, (mapM_ok_iff.1 hxs).imp fun _ _ => renderPart_ok modules, rfl⟩

theorem exists_render_of_member {owner name : Node} {t : Text}
    (h : (member owner name).render modules = .ok t) :
    ∃ o m, owner.render modules = .ok o ∧ name.render modules = .ok m
      ∧ t = ownerName modules owner o ++ text "." ++ m.capitalize := by
  obtain ⟨xs, hxs, rfl⟩ := exists_render_of_isComposite modules rfl h
  cases hxs with
  | @cons _ o _ _ ho hxs =>
    cases hxs with
    | @cons _ m _ _ hm hxs =>
      cases hxs
      exact ⟨o, m, ho, hm, rfl⟩

theorem exists_render_of_mem_parts {n : Node} {t : Text} (h : n.render modules = .ok t)
    (hn : ∀ owner name, n ≠ .member owner name) {p : Field × Node} (hp : p ∈ n.parts) :
    ∃ x, p.2.render modules = .ok x ∧ x <:+: t := by
  have hc : n.isComposite = true := by
    by_contra hnot
    rw [parts_of_not_isComposite (Bool.eq_false_iff.2 hnot)] at hp
    cases hp
  obtain ⟨xs, hxs, rfl⟩ := exists_render_of_isComposite modules hc h
  obtain ⟨i, hi, rfl⟩ := List.getElem_of_mem hp
  have hi' : i < xs.length := hxs.length_eq ▸ hi
  exact ⟨xs[i], hxs.get hi hi', infix_assemble modules hc hn hxs.length_eq (List.getElem_mem hi')⟩

/-- The owner of a member is capitalized only if it is a bare name, which shows nothing verbatim. -/
theorem ownerName_of_verbatim? {m owner : Node} {k : Nat} {v : Text} (h : ShownInNames m k owner)
    (hv : m.verbatim? = some v) (t : Text) : ownerName modules owner t = t := by
  cases owner with
  | str name =>
    cases h with
    | here => cases hv
    | inPart _ hp => cases hp
  | _ => rfl

theorem iterate_lowercase_infix_render {m n : Node} {k : Nat} {v : Text}
    (hv : m.verbatim? = some v) (hm : ShownInNames m k n) :
    ∀ {t : Text}, n.render modules = .ok t → Text.lowercase^[k] v <:+: t := by
  induction hm with
  | here => exact fun h => verbatim?_infix_render modules hv h
  | @inOwner owner name k hm ih =>
    intro t h
    obtain ⟨o, m', ho, -, rfl⟩ := exists_render_of_member modules h
    rw [ownerName_of_verbatim? modules hm hv, List.append_assoc]
    exact (ih ho).trans (List.prefix_append _ _).isInfix
  | @inName owner name k _ ih =>
    intro t h
    obtain ⟨o, m', -, hm', rfl⟩ := exists_render_of_member modules h
    rw [Function.iterate_succ_apply']
    have henclosed := (enclosed_of_verbatim? hv).iterate_lowercase k
    exact (Text.lowercase_infix_capitalize henclosed (ih hm')).trans
      (List.suffix_append _ _).isInfix
  | inPart hn hp _ ih =>
    intro t h
    obtain ⟨x, hx, hinfix⟩ := exists_render_of_mem_parts modules h hn hp
    exact (ih hx).trans hinfix

end Render

/-- Every quoted literal and every marker of a node is in the node's line, verbatim if it is in no
name of a member, and otherwise in lower case, once for each of the names it is in. -/
theorem render_shows_verbatim {modules : List Text} {n : Node} {t : Text}
    (h : n.render modules = .ok t) {m : Node} {v : Text} (hv : m.verbatim? = some v) :
    (Shown m n ↔ ∃ k, ShownInNames m k n)
    ∧ ∀ k, ShownInNames m k n → Text.lowercase^[k] v <:+: t :=
  ⟨shown_iff_exists_shownInNames, fun _ hm => iterate_lowercase_infix_render modules hv hm h⟩

/-- A literal in the name of a member, and another one behind it. -/
def keyLookup : Node :=
  .call (.member (.str (text "obj")) (.call (.str (text "get")) [.string (text "Key")]))
    [.bytes (text "AB")]

theorem render_shows_verbatim_keyLookup :
    keyLookup.render [] = .ok (text "obj.Get(\"key\")(b\"AB\")")
    ∧ (text "Key").quote.lowercase <:+: text "obj.Get(\"key\")(b\"AB\")"
    ∧ (text "AB").quote <:+: text "obj.Get(\"key\")(b\"AB\")" := by
  have hrender : keyLookup.render [] = .ok (text "obj.Get(\"key\")(b\"AB\")") := rfl
  have hcall : ∀ {receiver args} owner name, call receiver args ≠ .member owner name := by simp
  have hkey : ShownInNames (.string (text "Key")) 1 keyLookup :=
    .inPart hcall List.mem_cons_self
      (.inName (.inPart hcall (List.mem_cons_of_mem _ List.mem_cons_self) .here))
  have hbytes : ShownInNames (.bytes (text "AB")) 0 keyLookup :=
    .inPart hcall (List.mem_cons_of_mem _ List.mem_cons_self) .here
  exact ⟨hrender, (render_shows_verbatim hrender (v := (text "Key").quote) rfl).2 1 hkey,
    (render_shows_verbatim hrender (v := (text "AB").quote) rfl).2 0 hbytes⟩

/-- As the name of a member, neither a literal nor a marker stays as it is. -/
theorem name_lowers_verbatim :
    (member (.str (text "a")) (.string (text "Hi"))).render [] = .ok (text "a.\"hi\"")
    ∧ ¬ (text "Hi").quote <:+: text "a.\"hi\""
    ∧ (member (.str (text "a")) (.ifPyd [])).render []
        = .ok (text "a.// todo: ifpyd ifpyd(body=[])")
    ∧ ¬ marker Kind.ifPyd.name (ifPyd []).spell <:+: text "a.// todo: ifpyd ifpyd(body=[])" := by
  refine ⟨rfl, by decide, rfl, by decide⟩

end Node

end SuiteScribe
