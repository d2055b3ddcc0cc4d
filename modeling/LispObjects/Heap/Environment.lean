import LispObjects.Heap.Basic

namespace LispObjects.Heap

/-!
# Environments

An environment is a chain of frames. A lookup takes the innermost frame that binds the symbol, and a
write goes to the environment's own frame, so a binding hides those of the environments around it and
is seen from the environments inside it.
-/

/-- Makes an environment around which `parent?` lies. -/
def newEnvironment (h : Heap) (parent? : Option Environment) : Environment × Heap :=
  let (r, frames) := h.frames.alloc .empty
  (⟨r, parent?.elim [] Environment.frames⟩, { h with frames })

/-- The bindings of the environment's own frame. -/
def localBindings (h : Heap) (e : Environment) : Bindings Value :=
  h.frames.read e.frame

/-- Binds a symbol in the environment's own frame. -/
def bind (h : Heap) (e : Environment) (s : Symbol) (v : Value) : Heap :=
  { h with frames := h.frames.write e.frame ((h.localBindings e).put s v) }

/-- The value that the innermost binding of the symbol gives it. -/
def lookup? (h : Heap) (e : Environment) (s : Symbol) : Option Value :=
  e.frames.findSome? fun f => (h.frames.read f).get? s

/-- Whether a frame of the environment binds the symbol. -/
def isBound (h : Heap) (e : Environment) (s : Symbol) : Bool :=
  e.frames.any fun f => (h.frames.read f).contains s

/-- The value that the environment's own frame gives the symbol. -/
def localLookup? (h : Heap) (e : Environment) (s : Symbol) : Option Value :=
  (h.localBindings e).get? s

/-- How many symbols the environment's own frame binds. -/
def localSize (h : Heap) (e : Environment) : Nat :=
  (h.localBindings e).size

/-- A symbol is bound exactly if a lookup finds it. -/
theorem isBound_eq_isSome_lookup? (h : Heap) (e : Environment) (s : Symbol) :
    h.isBound e s = (h.lookup? e s).isSome := by
  simp only [isBound, lookup?]
  induction e.frames with
  | nil => rfl
  | cons f rest ih =>
    rw [List.any_cons, List.findSome?_cons, ih, Bindings.contains_eq_isSome_get?]
    cases (h.frames.read f).get? s <;> simp

end LispObjects.Heap
