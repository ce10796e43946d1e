import CallAtlas.Proofs.Path.Join
import CallAtlas.Sdk.Cache

namespace CallAtlas.Sdk

open CallAtlas.Text

def Dotless (s : String) : Prop := '.' ∉ s.toList

theorem Dotless.of_all {p : Char → Bool} {s : String} (class_ : p '.' = false)
    (all : s.toList.all p = true) : Dotless s := by
  intro dot
  rw [List.all_eq_true.mp all '.' dot] at class_
  cases class_

namespace Cache

theorem append_dot_inj {a b f g : List Char} (f_dotless : '.' ∉ f) (g_dotless : '.' ∉ g)
    (same : a ++ '.' :: f = b ++ '.' :: g) : a = b ∧ f = g := by
  induction a generalizing b with
  | nil =>
    cases b with
    | nil => simpa using same
    | cons c b =>
      simp only [List.nil_append, List.cons_append, List.cons.injEq] at same
      exact absurd (same.2 ▸ List.mem_append_right b List.mem_cons_self) f_dotless
  | cons c a ih =>
    cases b with
    | nil =>
      simp only [List.nil_append, List.cons_append, List.cons.injEq] at same
      exact absurd (same.2 ▸ List.mem_append_right a List.mem_cons_self) g_dotless
    | cons d b =>
      simp only [List.cons_append, List.cons.injEq] at same
      obtain ⟨texts, names⟩ := ih same.2
      exact ⟨by rw [same.1, texts], names⟩

theorem key_toList (p : Path) (f : String) : (key p f).toList = p.text.toList ++ '.' :: f.toList := by
  simp [key]

theorem key_inj {p q : Path} {f g : String} (f_dotless : Dotless f) (g_dotless : Dotless g)
    (same : key p f = key q g) : p = q ∧ f = g := by
  have chars := congrArg String.toList same
  rw [key_toList, key_toList] at chars
  obtain ⟨texts, names⟩ := append_dot_inj f_dotless g_dotless chars
  obtain ⟨p⟩ := p
  obtain ⟨q⟩ := q
  exact ⟨congrArg Path.mk (String.toList_inj.mp texts), String.toList_inj.mp names⟩

-- Names in one directory are told apart whatever they are.
theorem key_right_inj {p : Path} {f g : String} (same : key p f = key p g) : f = g := by
  have chars := congrArg String.toList same
  rw [key_toList, key_toList] at chars
  exact String.toList_inj.mp (List.cons.inj (List.append_cancel_left chars)).2

theorem lookup_addNew {α : Type} (entries : List (String × α)) (k other : String) (v : α) :
    (addNew entries k v).lookup other =
      if other = k then (entries.lookup k).or (some v) else entries.lookup other := by
  unfold addNew
  by_cases same : other = k
  · subst same
    cases found : entries.lookup other with
    | none => simp [List.lookup_append, found]
    | some old => simp [found]
  · have other_key : (other == k) = false := by simpa using same
    rw [if_neg same]
    split
    · rfl
    · simp [List.lookup_append, List.lookup_cons, List.lookup_nil, other_key]

theorem mark_new {marked : List Path} {p : Path} (new : marked.any (·.same p) = false) :
    mark marked p = (marked ++ [p], true) := by simp [mark, new]

theorem mark_old {marked : List Path} {p : Path} (old : marked.any (·.same p) = true) :
    mark marked p = (marked, false) := by simp [mark, old]

end Cache

end CallAtlas.Sdk
