import CallAtlas.Call.Basic
import CallAtlas.Data.SortedMap

namespace CallAtlas.Call

-- The order of identities: by URL, then by method, then by service name.
structure Identity where
  url : String
  method : String
  service : String
  deriving Repr, DecidableEq

def Identity.before (a b : Identity) : Bool :=
  if a.url < b.url then true
  else if b.url < a.url then false
  else if a.method < b.method then true
  else if b.method < a.method then false
  else decide (a.service < b.service)

instance : LT Identity := ⟨fun a b => a.before b = true⟩

instance : DecidableRel (fun a b : Identity => a < b) :=
  fun a b => inferInstanceAs (Decidable (a.before b = true))

instance : OrderedKey Identity where
  irrefl a h := by
    have h : a.before a = true := h
    simp [Identity.before] at h
  trans {a b c} h₁ h₂ := by
    have h₁ : a.before b = true := h₁
    have h₂ : b.before c = true := h₂
    show a.before c = true
    simp only [Identity.before] at *
    grind [String.lt_trans, String.lt_irrefl, String.le_antisymm, String.not_lt]
  connected {a b} h₁ h₂ := by
    have h₁ : ¬ a.before b = true := h₁
    have h₂ : ¬ b.before a = true := h₂
    obtain ⟨url, method, service⟩ := a
    obtain ⟨url', method', service'⟩ := b
    simp only [Identity.before] at *
    have := @OrderedKey.connected String _ _ url url'
    have := @OrderedKey.connected String _ _ method method'
    have := @OrderedKey.connected String _ _ service service'
    grind

def key (c : Call) : Identity :=
  let i := c.identity
  ⟨i.1, i.2.1, i.2.2⟩

-- Of the calls with one identity the first is kept.
def distinct (calls : List Call) : List Call :=
  (calls.foldl (fun m c => m.insertNew c.key c) (SortedMap.empty : SortedMap Identity Call)).values

end CallAtlas.Call
