import LayeredAnnotations.Binary64.Layout
import LayeredAnnotations.Value.Basic

namespace LayeredAnnotations

-- Doubles inside the text of a value always show a fraction or an exponent. Numbers of more than
-- sixteen integer digits and those below a ten-thousandth take the exponent.
def Layout.member : Layout where
  positional := some (-4, 15)
  pointZero := true
  plus := false
  tie := .up

def boolText (b : Bool) : String := if b then "true" else "false"

namespace Value

mutual

-- Strings are quoted but not escaped. The text goes behind `out`, so that none of it is copied once
-- for each level around it.
def textBehind (out : String) : Value → String
  | .bool b => out ++ boolText b
  | .int n => out ++ intText n.toInt
  | .long n => out ++ intText n.toInt ++ "L"
  | .double d => out ++ Layout.member.text d
  | .string s => out ++ "\"" ++ s ++ "\""
  | .type t => out ++ t.name ++ ".class"
  | .enum name => out ++ name
  | .array items => textItems (out ++ "\x7b") items ++ "\x7d"
  | .nested ⟨name, [], _⟩ => out ++ "@" ++ name
  | .nested ⟨name, m :: ms, _⟩ => textMembers (out ++ "@" ++ name ++ "(") (m :: ms) ++ ")"
termination_by structural v => v

def textItems (out : String) : List Value → String
  | [] => out
  | [v] => v.textBehind out
  | v :: w :: rest => textItems (v.textBehind out ++ ", ") (w :: rest)
termination_by structural vs => vs

def textMembers (out : String) : List (String × Value) → String
  | [] => out
  | [(key, v)] => v.textBehind (out ++ key ++ "=")
  | (key, v) :: m :: rest => textMembers (v.textBehind (out ++ key ++ "=") ++ ", ") (m :: rest)
termination_by structural m => m

end

def text (v : Value) : String := v.textBehind ""

mutual

-- The text of a value does not depend on what is in front of it.
theorem textBehind_eq (out : String) (v : Value) : v.textBehind out = out ++ v.text := by
  match v with
  | .bool b => simp [text, textBehind]
  | .int n => simp [text, textBehind]
  | .long n => simp [text, textBehind, String.append_assoc]
  | .double d => simp [text, textBehind]
  | .string s => simp [text, textBehind, String.append_assoc]
  | .type t => simp [text, textBehind, String.append_assoc]
  | .enum name => simp [text, textBehind]
  | .array items =>
    simp only [text, textBehind]
    rw [textItems_eq (out ++ _), textItems_eq ("" ++ _)]
    simp [String.append_assoc]
  | .nested ⟨name, [], _⟩ => simp [text, textBehind, String.append_assoc]
  | .nested ⟨name, m :: ms, _⟩ =>
    simp only [text, textBehind]
    rw [textMembers_eq (out ++ _ ++ _ ++ _), textMembers_eq ("" ++ _ ++ _ ++ _)]
    simp [String.append_assoc]
termination_by structural v

theorem textItems_eq (out : String) (vs : List Value) :
    textItems out vs = out ++ textItems "" vs := by
  match vs with
  | [] => simp [textItems]
  | [v] => exact textBehind_eq out v
  | v :: w :: rest =>
    simp only [textItems]
    rw [textItems_eq (v.textBehind out ++ _), textItems_eq (v.textBehind "" ++ _),
      textBehind_eq out v, textBehind_eq "" v]
    simp [String.append_assoc]
termination_by structural vs

theorem textMembers_eq (out : String) (m : List (String × Value)) :
    textMembers out m = out ++ textMembers "" m := by
  match m with
  | [] => simp [textMembers]
  | [(key, v)] =>
    simp only [textMembers]
    rw [textBehind_eq (out ++ _ ++ _) v, textBehind_eq ("" ++ _ ++ _) v]
    simp [String.append_assoc]
  | (key, v) :: e :: rest =>
    simp only [textMembers]
    rw [textMembers_eq (v.textBehind (out ++ _ ++ _) ++ _),
      textMembers_eq (v.textBehind ("" ++ _ ++ _) ++ _), textBehind_eq (out ++ _ ++ _) v,
      textBehind_eq ("" ++ _ ++ _) v]
    simp [String.append_assoc]
termination_by structural m

end

end Value

-- An annotation without explicit members is its name alone.
def Occurrence.text (o : Occurrence) : String := (Value.nested o).text

end LayeredAnnotations
