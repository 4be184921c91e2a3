import LayeredAnnotations.Proofs.Placeholder.Resolution
import LayeredAnnotations.Proofs.Value.Expansion

namespace LayeredAnnotations

-- Why something failed, if it did.
def failure? {α : Type} : Except Failure α → Option Failure
  | .error failure => some failure
  | .ok _ => none

namespace Value

mutual

-- The strings that expansion reaches, from the left: those in arrays, but none of a nested
-- annotation.
def texts : Value → List String
  | .string s => [s]
  | .array items => textsIn items
  | _ => []
termination_by structural v => v

def textsIn : List Value → List String
  | [] => []
  | v :: rest => v.texts ++ textsIn rest
termination_by structural vs => vs

end

mutual

-- Rewrites those strings, and leaves everything else as it is.
def mapTexts (f : String → String) : Value → Value
  | .string s => .string (f s)
  | .array items => .array (mapTextsIn f items)
  | v => v
termination_by structural v => v

def mapTextsIn (f : String → String) : List Value → List Value
  | [] => []
  | v :: rest => v.mapTexts f :: mapTextsIn f rest
termination_by structural vs => vs

end

-- What is left of a value when those strings are struck out.
def outline (v : Value) : Value := v.mapTexts fun _ => ""

-- The expressions in those strings, without their braces, from the left.
def expressions (v : Value) : List (List Char) :=
  v.texts.flatMap fun text => (Template.parse text.toList).expressions

theorem textsIn_eq_flatMap (vs : List Value) : textsIn vs = vs.flatMap texts := by
  induction vs with
  | nil => rfl
  | cons v rest ih => rw [textsIn, List.flatMap_cons, ih]

theorem mapTextsIn_eq_map (f : String → String) (vs : List Value) :
    mapTextsIn f vs = vs.map (mapTexts f) := by
  induction vs with
  | nil => rfl
  | cons v rest ih => rw [mapTextsIn, List.map_cons, ih]

@[simp] theorem texts_array (items : List Value) : (array items).texts = items.flatMap texts :=
  textsIn_eq_flatMap items

@[simp] theorem mapTexts_array (f : String → String) (items : List Value) :
    (array items).mapTexts f = array (items.map (mapTexts f)) :=
  congrArg array (mapTextsIn_eq_map f items)

theorem texts_mapTexts (f : String → String) (v : Value) : (v.mapTexts f).texts = v.texts.map f := by
  induction v with
  | array items ih =>
    rw [mapTexts_array, texts_array, texts_array, List.flatMap_map, List.map_flatMap]
    exact List.flatMap_congr ih
  | _ => rfl

theorem mapTexts_mapTexts (f g : String → String) (v : Value) :
    (v.mapTexts f).mapTexts g = v.mapTexts (g ∘ f) := by
  induction v with
  | array items ih =>
    rw [mapTexts_array, mapTexts_array, mapTexts_array, List.map_map]
    exact congrArg array (List.map_congr_left ih)
  | _ => rfl

theorem outline_mapTexts (f : String → String) (v : Value) : (v.mapTexts f).outline = v.outline :=
  mapTexts_mapTexts f _ v

section Expansion

-- Resolution that leaves a text without expressions alone, and gives `g` where it succeeds.
variable {resolve : String → Except Failure String} {g : String → String}
  (hplain : ∀ text, containsPlaceholder text = false → resolve text = .ok text)
  (hg : ∀ text s, resolve text = .ok s → g text = s)

include hplain hg

-- The first text from the left that cannot be resolved decides.
theorem expandWith_eq (v : Value) :
    v.expandWith resolve =
      match v.texts.findSome? fun text => failure? (resolve text) with
      | some failure => .error failure
      | none => .ok (v.mapTexts g) := by
  induction v with
  | string s =>
    have hstring : (string s).expandWith resolve = (resolve s).map string := by
      rw [expandWith]
      split
      · rfl
      · next hnone => rw [hplain s (eq_false_of_ne_true hnone)]; rfl
    rw [hstring, texts, List.findSome?_singleton]
    cases hs : resolve s with
    | error failure => rfl
    | ok t => rw [mapTexts, hg s t hs]; rfl
  | array items ih =>
    have hitems : expandItems resolve items =
        match (items.flatMap texts).findSome? fun text => failure? (resolve text) with
        | some failure => .error failure
        | none => .ok (items.map (mapTexts g)) := by
      induction items with
      | nil => rfl
      | cons v rest ihrest =>
        obtain ⟨hv, hrest⟩ := List.forall_mem_cons.mp ih
        rw [expandItems, hv, ihrest hrest, List.flatMap_cons, List.findSome?_append]
        cases v.texts.findSome? fun text => failure? (resolve text) with
        | some failure => rfl
        | none => cases (rest.flatMap texts).findSome? fun text => failure? (resolve text) <;> rfl
    rw [expandWith, hitems, texts_array, mapTexts_array]
    cases (items.flatMap texts).findSome? fun text => failure? (resolve text) <;> rfl
  | _ => rfl

end Expansion

variable (properties : Keyed String)

theorem expand_lenient (v : Value) :
    v.expand (.ofProperties properties) true =
      .ok (v.mapTexts (Resolver.ofProperties properties).lenient) := by
  have hplain : ∀ text, containsPlaceholder text = false →
      (.ok ((Resolver.ofProperties properties).lenient text) : Except Failure String) = .ok text := by
    intro text htext
    rw [Resolver.lenient_of_strict properties (Resolver.strict_of_plain properties htext)]
  have hnone : v.texts.findSome? (fun text => failure?
      (.ok ((Resolver.ofProperties properties).lenient text) : Except Failure String)) = none :=
    List.findSome?_eq_none_iff.mpr fun _ _ => rfl
  rw [expand, if_pos rfl, expandWith_eq hplain fun _ _ h => Except.ok.inj h, hnone]

-- Strict expansion fails with the first expression from the left that stands for nothing.
theorem expand_strict (v : Value) :
    v.expand (.ofProperties properties) false =
      match v.expressions.find? fun body => (Resolver.answer? properties body).isNone with
      | some body => .error (.unresolvable (Template.written body))
      | none => .ok (v.mapTexts (Resolver.ofProperties properties).lenient) := by
  have hfailure : ∀ text, failure? ((Resolver.ofProperties properties).strict text) =
      ((Template.parse text.toList).expressions.find? fun body =>
        (Resolver.answer? properties body).isNone).map fun body =>
          .unresolvable (Template.written body) := by
    intro text
    rw [Resolver.strict_eq]
    cases (Template.parse text.toList).expressions.find? _ <;> rfl
  have hfirst : v.texts.findSome? (fun text =>
      failure? ((Resolver.ofProperties properties).strict text)) =
      (v.expressions.find? fun body => (Resolver.answer? properties body).isNone).map fun body =>
        .unresolvable (Template.written body) := by
    rw [expressions, List.find?_flatMap, List.map_findSome?]
    simp only [hfailure, Function.comp_def]
  rw [expand, if_neg Bool.false_ne_true, expandWith_eq
    (fun _ => Resolver.strict_of_plain properties) fun _ _ => Resolver.lenient_of_strict properties,
    hfirst]
  cases v.expressions.find? _ <;> rfl

end Value

end LayeredAnnotations
