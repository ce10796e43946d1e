namespace CallAtlas

inductive Severity where
  | warning
  | error
  deriving Repr, DecidableEq

structure Notice where
  severity : Severity
  text : String
  deriving Repr, DecidableEq

-- Notices stay in order, also when what is computed beside them fails.
structure Noted (α : Type) where
  value : α
  notices : List Notice := []
  deriving Repr

namespace Noted

instance : Monad Noted where
  pure a := ⟨a, []⟩
  bind x f :=
    let y := f x.value
    ⟨y.value, x.notices ++ y.notices⟩

def warn (text : String) : Noted Unit := ⟨(), [⟨.warning, text⟩]⟩

def error (text : String) : Noted Unit := ⟨(), [⟨.error, text⟩]⟩

variable {α β : Type}

@[simp]
theorem value_pure (a : α) : (pure a : Noted α).value = a := rfl

@[simp]
theorem notices_pure (a : α) : (pure a : Noted α).notices = [] := rfl

@[simp]
theorem value_bind (x : Noted α) (f : α → Noted β) : (x >>= f).value = (f x.value).value := rfl

@[simp]
theorem notices_bind (x : Noted α) (f : α → Noted β) :
    (x >>= f).notices = x.notices ++ (f x.value).notices := rfl

instance : LawfulMonad Noted :=
  LawfulMonad.mk' Noted
    (fun x => by
      cases x with
      | mk value notices => exact congrArg (Noted.mk value) (List.append_nil notices))
    (fun _ _ => rfl)
    (fun x f g => by
      cases x with
      | mk value notices => exact congrArg (Noted.mk _) (List.append_assoc notices _ _))

end Noted

end CallAtlas
