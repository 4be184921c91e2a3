import LayeredAnnotations.Level.Expander
import LayeredAnnotations.Level.Layered
import LayeredAnnotations.Level.Record

namespace LayeredAnnotations

-- The levels that annotations of an element can be spread over, nested at will.
inductive Level where
  | empty
  | recorded (r : Record)
  | expanding (x : Expander) (inner : Level)
  -- the level of the element itself, then its ancestors up to the outermost
  | layered (declared : Level) (ancestors : List Level)
  -- a host's own level that hands on questions to another
  | forwarding (inner : Level)

namespace Level

mutual

-- An element without annotations is one on which nothing was found. What is inside a layered level
-- is only looked at for a question, so that a level may well be inside another one many times.
def answers : Level → Answers
  | .empty => Record.empty.answers
  | .recorded r => r.answers
  | .expanding x inner => x.answers inner.answers
  | .layered declared ancestors => .delayed fun _ => .layered declared.answers (answersOf ancestors)
  | .forwarding inner => .forwarding inner.answers
termination_by structural l => l

def answersOf : List Level → List Answers
  | [] => []
  | l :: rest => l.answers :: answersOf rest
termination_by structural ls => ls

end

theorem answersOf_eq_map (ls : List Level) : answersOf ls = ls.map answers := by
  induction ls with
  | nil => rfl
  | cons l rest ih => rw [answersOf, List.map_cons, ih]

theorem answers_layered (declared : Level) (ancestors : List Level) :
    (layered declared ancestors).answers =
      .layered declared.answers (ancestors.map answers) := by
  rw [answers, Answers.delayed_eq, answersOf_eq_map]

-- Levels given with the outermost ancestor first. Without any there are two empty ones, so that
-- there are always a declared and an outermost one.
def ofOutermost (levels : List Level) : Level :=
  match levels.reverse with
  | [] => .layered .empty [.empty]
  | declared :: ancestors => .layered declared ancestors

-- The levels inside a layered one, the declared one first.
def layers : Level → List Level
  | .layered declared ancestors => declared :: ancestors
  | _ => []

def declared? (l : Level) : Option Level := l.layers.head?

def outermost? (l : Level) : Option Level := l.layers.getLast?

-- The same ancestors for another element; without any to share it is the element alone.
def sibling (l child : Level) : Level :=
  match l with
  | .layered _ (a :: ancestors) => .layered child (a :: ancestors)
  | _ => child

end Level

end LayeredAnnotations
