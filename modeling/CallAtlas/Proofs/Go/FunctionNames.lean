import CallAtlas.Proofs.Go.Rules

namespace CallAtlas.Go

namespace Rule

theorem name_gives : Gives (fun t => t.text.toList.all isNamePart = true) name := by
  refine Gives.after fun t => ?_
  intro s c input given rest ran
  obtain ⟨_, middle, checked, ran⟩ := done_bind.mp ran
  obtain ⟨rfl, _⟩ := done_give.mp ran
  exact given.plain (eq_of_beq (done_guard.mp checked).1)

end Rule

namespace Grammar

open Rule

def Item.Named : Item → Prop
  | .function spec => spec.name.toList.all isNamePart = true
  | _ => True

theorem functionHead_gives : Gives (fun head => head.1.toList.all isNamePart = true) functionHead := by
  unfold functionHead
  refine Gives.after fun _ => Gives.after fun t => ?_
  split
  · exact Gives.after fun _ => name_gives.bind fun n plain => Gives.after fun _ => Gives.after fun _ => Gives.pure plain
  · exact name_gives.bind fun n plain => Gives.pure plain

theorem functionDeclaration_gives (name : String) (isMethod : Bool) :
    Gives (fun item => ∃ spec, item = .function spec ∧ spec.name = name) (functionDeclaration name isMethod) := by
  unfold functionDeclaration
  refine Gives.after fun bracket => Gives.optional fun _ => ?_
  refine Gives.after fun first => Gives.after fun _ => Gives.after fun paramsStop => ?_
  refine Gives.after fun _ => Gives.after fun body => Gives.optional fun _ => ?_
  exact Gives.after fun stop => Gives.pure ⟨_, rfl, rfl⟩

theorem importDeclaration_gives : Gives (fun item => ∃ specs, item = .imports specs) importDeclaration := by
  unfold importDeclaration
  refine Gives.after fun _ => Gives.after fun group => ?_
  split
  · refine Gives.enclosed (Gives.after fun empty => ?_)
    split
    · exact Gives.pure ⟨_, rfl⟩
    · exact Gives.after fun _ => Gives.after fun _ => Gives.pure ⟨_, rfl⟩
  · exact Gives.after fun _ => Gives.pure ⟨_, rfl⟩

theorem packageClause_gives : Gives (fun item => ∃ name, item = .package name) packageClause :=
  Gives.after fun _ => Gives.after fun _ => Gives.pure ⟨_, rfl⟩

theorem topLevel_gives : Gives (fun r => r.1.Named) topLevel := by
  unfold topLevel
  dsimp only
  have statement : Gives (fun r : Item × Bool => r.1.Named)
      (do let ended ← statement false; pure (.statement, ended)) :=
    Gives.after fun _ => Gives.pure trivial
  refine Gives.after fun t => ?_
  split
  · refine packageClause_gives.bind fun item clause => Gives.pure ?_
    obtain ⟨_, rfl⟩ := clause
    trivial
  split
  · refine importDeclaration_gives.bind fun item imports => Gives.pure ?_
    obtain ⟨_, rfl⟩ := imports
    trivial
  split
  · have head : Gives (∀ found ∈ ·, found.1.toList.all isNamePart = true)
        (orTry (do return some (← functionHead)) (pure none)) :=
      Gives.orTry (functionHead_gives.bind fun _ plain => Gives.pure fun _ member => Option.some.inj member ▸ plain)
        (Gives.pure nofun)
    refine head.bind fun found plain => ?_
    split
    · rename_i name isMethod
      refine (functionDeclaration_gives name isMethod).bind fun item function => Gives.pure ?_
      obtain ⟨spec, rfl, same⟩ := function
      change spec.name.toList.all isNamePart = true
      exact same ▸ plain _ rfl
    · exact statement
  split
  · refine Gives.after fun d => Gives.pure ?_
    split <;> trivial
  · exact statement

theorem entry_gives : Gives Item.Named entry := by
  unfold entry
  refine topLevel_gives.bind fun r named => Gives.after fun t => ?_
  dsimp only
  split
  · exact Gives.after fun _ => Gives.pure named
  · exact Gives.after fun _ => Gives.pure named

theorem runItem_gives {P : α → Prop} {r : Rule α} {ts : List Token} {rest : Input} {a : α} (gives : Gives P r)
    (ran : runItem r ts = .done (a, rest)) : P a := by
  cases ts with
  | nil => cases ran
  | cons t more => exact gives _ _ _ _ _ ran

theorem items_cons {n : Nat} {t : Token} {more : List Token} {placed : List Placed}
    (read : items (n + 1) (t :: more) = some placed) :
    t.kind = .eof ∧ placed = [] ∨
      ∃ item rest others, runItem entry (t :: more) = .done (item, rest) ∧ items n rest.tokens = some others ∧
        placed = ⟨t.start, t.line, item⟩ :: others ∧ t.kind ≠ .eof := by
  rw [items] at read
  split at read
  · rename_i last
    exact .inl ⟨last, (Option.some.inj read).symm⟩
  · rename_i further
    split at read
    · rename_i item rest ran
      obtain ⟨others, following, rfl⟩ := Option.map_eq_some_iff.mp read
      exact .inr ⟨item, rest, others, ran, following, rfl, further⟩
    · cases read

-- What holds of every item that is read from good tokens, which are left good.
theorem items_all {Q : List Token → Prop} {P : Placed → Prop}
    (step : ∀ t more item rest, Q (t :: more) → runItem entry (t :: more) = .done (item, rest) →
      P ⟨t.start, t.line, item⟩ ∧ Q rest.tokens) {n : Nat} {ts : List Token} {placed : List Placed} (given : Q ts)
    (read : items n ts = some placed) : ∀ p ∈ placed, P p := by
  induction n generalizing ts placed with
  | zero => cases read
  | succ n ih =>
    cases ts with
    | nil => cases read
    | cons t more =>
      intro p member
      rcases items_cons read with ⟨_, rfl⟩ | ⟨item, rest, others, ran, further, rfl, _⟩
      · cases member
      · obtain ⟨first, left⟩ := step t more item rest given ran
        rcases List.mem_cons.mp member with rfl | member
        · exact first
        · exact ih left further p member

theorem items_named {n : Nat} {ts : List Token} {placed : List Placed} (read : items n ts = some placed) :
    ∀ p ∈ placed, p.item.Named :=
  items_all (P := fun p => p.item.Named) (Q := fun _ => True) (fun _ _ _ _ _ ran => ⟨runItem_gives entry_gives ran, trivial⟩) trivial read

end Grammar

theorem SourceFile.ofText_names {path : Path} {source : String} {file : SourceFile}
    (read : SourceFile.ofText path source = .ok file) :
    ∀ f ∈ file.functions, f.name.toList.all isNamePart = true := by
  unfold ofText at read
  split at read
  · cases read
  · rename_i items parsed
    cases read
    intro f member
    obtain ⟨⟨start, line, item⟩, declared, is⟩ := List.mem_filterMap.mp member
    have named := Grammar.items_named parsed _ declared
    cases item with
    | function spec => cases is; exact named
    | _ => cases is

theorem SourceFile.ofBody_names {path : Path} {body : Body} {file : SourceFile}
    (read : SourceFile.ofBody path body = .ok file) :
    ∀ f ∈ file.functions, f.name.toList.all isNamePart = true := by
  unfold ofBody at read
  split at read
  · exact ofText_names read
  · cases read

-- The path that a file is read under is noted in it and decides nothing else.
theorem SourceFile.ofBody_path {p : Path} {body : Body} {file : SourceFile}
    (read : ofBody p body = .ok file) (q : Path) : ofBody q body = .ok { file with path := q } := by
  unfold ofBody at read ⊢
  split at read
  · unfold ofText at read ⊢
    split at read
    · cases read
    · cases read
      rfl
  · cases read

-- The same functions are declared; where they stand in their files does not count.
def SourceFile.Permuted (file file' : SourceFile) : Prop :=
  (file.functions.map fun f => (f.name, f.source)).Perm
    (file'.functions.map fun f => (f.name, f.source))

namespace SourceFile.Permuted

variable {file file' : SourceFile}

theorem symm (permuted : file.Permuted file') : file'.Permuted file := List.Perm.symm permuted

theorem counterpart {f : Function} (permuted : file.Permuted file') (member : f ∈ file.functions) :
    ∃ g ∈ file'.functions, g.name = f.name ∧ g.source = f.source := by
  have there : (f.name, f.source) ∈ file'.functions.map fun f => (f.name, f.source) :=
    permuted.mem_iff.mp (List.mem_map_of_mem member)
  obtain ⟨g, member, same⟩ := List.mem_map.mp there
  exact ⟨g, member, congrArg Prod.fst same, congrArg Prod.snd same⟩

theorem distinct (permuted : file.Permuted file') (distinct : (file.functions.map (·.name)).Nodup) :
    (file'.functions.map (·.name)).Nodup := by
  have names := List.Perm.map Prod.fst permuted
  rw [List.map_map, List.map_map] at names
  exact names.nodup_iff.mp distinct

end SourceFile.Permuted

end CallAtlas.Go
