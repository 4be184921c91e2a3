import LayeredAnnotations.Proofs.Level.Lookup

namespace LayeredAnnotations

namespace Level

theorem filter_all (v? : Option Value) : (v?.filter fun _ => true) = v? := by
  cases v? <;> rfl

section Wrapping

variable (name member : String) (accept : Value → Bool)

theorem value?_recorded (r : Record) : (recorded r).value? name member = r.raw? name member :=
  filter_all (r.raw? name member)

theorem value?_expanding (x : Expander) (inner : Level) :
    (expanding x inner).value? name member = (x.value inner.answers none name member).value := by
  rw [value?, scalar?_expanding, filter_all]

theorem value?_layered (declared : Level) (ancestors : List Level) :
    (layered declared ancestors).value? name member =
      (declared :: ancestors).findSome? (·.value? name member) :=
  scalar?_layered none name member _ declared ancestors

end Wrapping

end Level

end LayeredAnnotations
