import Verdict.Proofs.Call.Shape
import Verdict.Proofs.Operands.Recognition

namespace Verdict

/-- A token whose value is that of a variable. -/
def Token.IsVariable (t : Token) : Prop := t.kind = .identifier ∧ t.value = none

instance (t : Token) : Decidable t.IsVariable :=
  inferInstanceAs (Decidable (t.kind = .identifier ∧ t.value = none))

namespace Term

/-- A term that is a variable. -/
def IsVariable : Term → Prop
  | atom t => t.IsVariable
  | _ => False

mutual

/-- No method is called on a variable. -/
def CallsFixed : Term → Prop
  | atom _ => True
  | array items => AllFixed items
  | function _ arguments => AllFixed arguments
  | method receiver _ arguments =>
    ¬ receiver.IsVariable ∧ receiver.CallsFixed ∧ AllFixed arguments

/-- In none of some terms, a method is called on a variable. -/
def AllFixed : List Term → Prop
  | [] => True
  | term :: rest => term.CallsFixed ∧ AllFixed rest

end

theorem allFixed_concat {items : List Term} {item : Term} :
    AllFixed (items ++ [item]) ↔ AllFixed items ∧ item.CallsFixed := by
  induction items with
  | nil => simp [AllFixed]
  | cons first rest ih => simp [AllFixed, ih, and_assoc]

end Term

/-- A scope with the standard callables, and one of the same kind in which all variables are
undefined. -/
structure Scope.Blanks (scope blank : Scope) : Prop where
  registry : scope.registry = .standard
  blank_registry : blank.registry = .standard
  maxDepth : blank.maxDepth = scope.maxDepth
  regex : ∀ name v, scope.bindings.get? name = some v → v.regex? = none
  undefined : ∀ name v, blank.bindings.get? name = some v → v = .undefined

/-- If no method is called on a variable, then undefined variables change nothing in the shapes of
values, and no argument becomes a regular expression or ceases to be one. -/
def Phrase.Alike (scope blank : Scope) : Phrase → Prop
  | .value term => term.CallsFixed → ∀ v, term.value? scope = some v →
      ∃ w, term.value? blank = some w ∧ v.regex? = w.regex? ∧
        (¬ term.IsVariable → v.shape = w.shape)
  | .series items | .list _ items => Term.AllFixed items →
      ∀ vs, Term.values? scope items = some vs →
        ∃ ws, Term.values? blank items = some ws ∧ vs.map Value.regex? = ws.map Value.regex?

section

variable {scope blank : Scope} {t : Token} {items : List Term} {item receiver : Term}

theorem alike_atom (h : scope.Blanks blank) (ht : blank.Knows t) :
    (Phrase.value (.atom t)).Alike scope blank := by
  intro _ v hv
  simp only [Term.value?, Scope.atomValue?] at hv
  cases hvalue : t.value with
  | some u =>
    simp only [hvalue, Option.some.injEq] at hv
    subst v
    exact ⟨u, by simp [Term.value?, Scope.atomValue?, hvalue], rfl, fun _ => rfl⟩
  | none =>
    simp only [hvalue] at hv
    split at hv
    next hk =>
      obtain ⟨w, hw⟩ := Option.isSome_iff_exists.mp (ht.bound hk hvalue)
      have hundefined := h.undefined _ _ hw
      subst w
      refine ⟨.undefined, by simp [Term.value?, Scope.atomValue?, hvalue, hk, hw], ?_, ?_⟩
      · rw [h.regex _ _ hv]
        rfl
      · exact fun hn => absurd ⟨hk, hvalue⟩ hn
    next hk =>
      cases hv
      exact ⟨.string t.raw, by simp [Term.value?, Scope.atomValue?, hvalue, hk], rfl, fun _ => rfl⟩

theorem alike_array (h : (Phrase.list .closeBracket items).Alike scope blank) :
    (Phrase.value (.array items)).Alike scope blank := by
  intro hfixed v hv
  simp only [Term.value?, Option.map_eq_some_iff] at hv
  obtain ⟨vs, hvs, rfl⟩ := hv
  obtain ⟨ws, hws, _⟩ := h hfixed vs hvs
  exact ⟨.array ws, by simp [Term.value?, hws], rfl, fun _ => rfl⟩

theorem alike_function (hb : scope.Blanks blank)
    (h : (Phrase.list .closeParen items).Alike scope blank) :
    (Phrase.value (.function t items)).Alike scope blank := by
  intro hfixed v hv
  simp only [Term.value?, Option.bind_eq_bind, Option.bind_eq_some_iff, hb.registry] at hv
  obtain ⟨f, hf, vs, hvs, hv⟩ := hv
  obtain ⟨ws, hws, _⟩ := h hfixed vs hvs
  obtain ⟨u, hu, hscalar⟩ := Registry.standard_function hf vs
  obtain ⟨w, hw, hscalar'⟩ := Registry.standard_function hf ws
  have huv : u = v := by simpa [hu, Except.toOption] using hv
  subst v
  have hshape : u.shape = w.shape := hscalar.trans hscalar'.symm
  exact ⟨w, by simp [Term.value?, hb.blank_registry, hf, hws, hw, Except.toOption],
    Value.regex?_eq_of_shape hshape, fun _ => hshape⟩

theorem alike_method (hb : scope.Blanks blank) (hr : (Phrase.value receiver).Alike scope blank)
    (h : (Phrase.list .closeParen items).Alike scope blank) :
    (Phrase.value (.method receiver t items)).Alike scope blank := by
  intro hfixed v hv
  obtain ⟨hvariable, hreceiver, hitems⟩ := hfixed
  simp only [Term.value?, Option.bind_eq_bind, Option.bind_eq_some_iff, hb.registry] at hv
  obtain ⟨u, hu, f, hf, vs, hvs, hv⟩ := hv
  obtain ⟨u', hu', _, hshape⟩ := hr hreceiver u hu
  obtain ⟨ws, hws, hargs⟩ := h hitems vs hvs
  obtain ⟨⟨g, hg⟩, _⟩ := Registry.standard_method hf
  have hresult : (f (some u') ws).toOption.map Value.shape = some v.shape := by
    rw [hg, ← hshape hvariable, ← hargs, ← hg, hv]
    rfl
  obtain ⟨w, hw, hsame⟩ := Option.map_eq_some_iff.mp hresult
  exact ⟨w, by simp [Term.value?, hb.blank_registry, hu', hf, hws, hw],
    (Value.regex?_eq_of_shape hsame).symm, fun _ => hsame.symm⟩

theorem alike_concat (hts : (Phrase.series items).Alike scope blank)
    (hus : (Phrase.value item).Alike scope blank) :
    (Phrase.series (items ++ [item])).Alike scope blank := by
  intro hfixed vs hvs
  obtain ⟨hitems, hitem⟩ := Term.allFixed_concat.mp hfixed
  simp only [Term.values?_concat, Option.bind_eq_some_iff, Option.map_eq_some_iff] at hvs
  obtain ⟨us, hus', u, hu, rfl⟩ := hvs
  obtain ⟨ws, hws, hargs⟩ := hts hitems us hus'
  obtain ⟨w, hw, harg, _⟩ := hus hitem u hu
  exact ⟨ws ++ [w], by simp [Term.values?_concat, hws, hw], by simp [hargs, harg]⟩

theorem alike_of_spells {depth : Nat} {ts : List Token} {phrase : Phrase}
    (h : Spells depth ts phrase) (hb : scope.Blanks blank) (hk : ∀ t ∈ ts, blank.Knows t) :
    phrase.Alike scope blank := by
  induction h with
  | atom => exact alike_atom hb (hk _ (by simp))
  | array _ _ ih => exact alike_array (ih (fun t ht => hk t (by simp [ht])))
  | function _ _ ih => exact alike_function hb (ih (fun t ht => hk t (by simp [ht])))
  | method _ _ _ _ ihr ihl =>
    exact alike_method hb (ihr (fun t ht => hk t (by simp [ht])))
      (ihl (fun t ht => hk t (by simp [ht])))
  | one _ _ ih =>
    have hnil : (Phrase.series []).Alike scope blank := fun _ vs hvs => ⟨vs, hvs, rfl⟩
    exact alike_concat hnil (ih (fun t ht => hk t (by simp [ht])))
  | more _ _ _ _ _ ihts ihus =>
    exact alike_concat (ihts (fun t ht => hk t (by simp [ht])))
      (ihus (fun t ht => hk t (by simp [ht])))
  | none => exact fun _ vs hvs => ⟨vs, hvs, rfl⟩
  | some _ _ ih => exact ih (fun t ht => hk t (by simp [ht]))

theorem Term.value?_of_isVariable (hb : scope.Blanks blank) {term : Term} {v : Value}
    (h : term.IsVariable) (hv : term.value? blank = some v) : v = .undefined := by
  cases term with
  | atom t =>
    obtain ⟨hk, hnone⟩ := h
    simp only [value?, Scope.atomValue?, hnone, hk, if_true] at hv
    exact hb.undefined _ _ hv
  | _ => exact h.elim

namespace Term

mutual

/-- A method called on an undefined variable has no result. -/
theorem callsFixed_of_value? (hb : scope.Blanks blank) :
    ∀ {term : Term} {v : Value}, term.value? blank = some v → term.CallsFixed
  | atom _, _, _ => trivial
  | array items, v, h => by
    simp only [value?, Option.map_eq_some_iff] at h
    obtain ⟨vs, hvs, _⟩ := h
    exact allFixed_of_values? hb hvs
  | function t items, v, h => by
    simp only [value?, Option.bind_eq_bind, Option.bind_eq_some_iff] at h
    obtain ⟨_, _, vs, hvs, _⟩ := h
    exact allFixed_of_values? hb hvs
  | method receiver t items, v, h => by
    simp only [value?, Option.bind_eq_bind, Option.bind_eq_some_iff, hb.blank_registry] at h
    obtain ⟨u, hu, f, hf, vs, hvs, hv⟩ := h
    refine ⟨fun hvariable => ?_, callsFixed_of_value? hb hu, allFixed_of_values? hb hvs⟩
    have hundefined := value?_of_isVariable hb hvariable hu
    subst u
    simp [(Registry.standard_method hf).2 vs] at hv

theorem allFixed_of_values? (hb : scope.Blanks blank) :
    ∀ {items : List Term} {vs : List Value}, values? blank items = some vs → AllFixed items
  | [], _, _ => trivial
  | first :: rest, vs, h => by
    simp only [values?, Option.bind_eq_bind, Option.bind_eq_some_iff] at h
    obtain ⟨_, hv, _, hvs, _⟩ := h
    exact ⟨callsFixed_of_value? hb hv, allFixed_of_values? hb hvs⟩

end

end Term

end

/-- If no method is called on a variable, then a term that begins with one is one. -/
theorem Spells.isVariable_iff {depth : Nat} {first : Token} {ts : List Token} {term : Term}
    (h : Spells depth (first :: ts) (.value term)) (hterm : term.CallsFixed) :
    first.IsVariable ↔ term.IsVariable := by
  generalize hts : first :: ts = us at h
  generalize hphrase : Phrase.value term = phrase at h
  induction h generalizing first ts term with
  | atom =>
    cases hts
    cases hphrase
    exact Iff.rfl
  | array ht =>
    cases hts
    cases hphrase
    simp [Token.IsVariable, Term.IsVariable, ht]
  | function ht =>
    cases hts
    cases hphrase
    simp [Token.IsVariable, Term.IsVariable, ht]
  | @method depth t us g rest receiver items hus _ _ _ ihr =>
    cases hphrase
    obtain ⟨hreceiver, hcalls, _⟩ := hterm
    obtain ⟨first', us', rfl, _⟩ := hus.exists_first
    cases hts
    have hfirst := ihr hcalls rfl rfl
    exact ⟨fun h => absurd (hfirst.mp h) hreceiver, False.elim⟩
  | _ => cases hphrase

end Verdict
