import CallAtlas.Sdk.SourceTree

namespace CallAtlas.Sdk.Resolving

def answer (m : Resolving α) (s : State) : α := (m s).value.1

def after (m : Resolving α) (s : State) : State := (m s).value.2

variable (s : State)

@[simp]
theorem answer_pure (a : α) : answer (pure a) s = a := rfl

@[simp]
theorem after_pure (a : α) : after (pure a) s = s := rfl

@[simp]
theorem answer_bind (m : Resolving α) (f : α → Resolving β) :
    answer (m >>= f) s = answer (f (answer m s)) (after m s) := rfl

@[simp]
theorem after_bind (m : Resolving α) (f : α → Resolving β) :
    after (m >>= f) s = after (f (answer m s)) (after m s) := rfl

@[simp]
theorem answer_get : answer get s = s := rfl

@[simp]
theorem after_get : after get s = s := rfl

@[simp]
theorem after_set (t : State) : after (set t) s = t := rfl

@[simp]
theorem after_modify (f : State → State) : after (modify f) s = f s := rfl

@[simp]
theorem after_warn (text : String) : after (warn text) s = s := rfl

@[simp]
theorem after_map (f : α → β) (m : Resolving α) : after (f <$> m) s = after m s := rfl

theorem answer_mapM_cons (f : α → Resolving β) (a : α) (rest : List α) :
    answer ((a :: rest).mapM f) s = answer (f a) s :: answer (rest.mapM f) (after (f a) s) := by
  rw [List.mapM_cons]
  rfl

theorem after_mapM_cons (f : α → Resolving β) (a : α) (rest : List α) :
    after ((a :: rest).mapM f) s = after (rest.mapM f) (after (f a) s) := by
  rw [List.mapM_cons]
  rfl

theorem mapM_append (f : α → Resolving β) (first second : List α) :
    answer ((first ++ second).mapM f) s =
        answer (first.mapM f) s ++ answer (second.mapM f) (after (first.mapM f) s) ∧
      after ((first ++ second).mapM f) s = after (second.mapM f) (after (first.mapM f) s) := by
  rw [List.mapM_append]
  exact ⟨rfl, rfl⟩

-- Reading a file changes the list of files read and nothing else.
@[simp]
theorem after_parseFile (tree : SourceTree) (path : Path) :
    after (parseFile tree path) s = { s with reads := s.reads ++ [path] } := by
  unfold parseFile
  simp only [after_bind, after_modify]
  split
  · rfl
  · split <;> rfl

theorem answer_parseFile (tree : SourceTree) (path : Path) (t : State) :
    answer (parseFile tree path) s = answer (parseFile tree path) t := by
  unfold parseFile
  simp only [answer_bind]
  split
  · rfl
  · split <;> rfl

end CallAtlas.Sdk.Resolving
