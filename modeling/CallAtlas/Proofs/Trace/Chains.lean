import CallAtlas.Trace
import Mathlib.Data.List.Nodup

namespace CallAtlas.Trace

open CallAtlas.Text CallAtlas.Sdk

-- Some text of a function matches a call of the callee and has a piece between commas at the
-- position. The argument is this piece without blanks and then without parentheses at its ends.
def Passes (callee : String) (position : Nat) (g : Go.Function) (argument : String) : Prop :=
  ∃ m piece, (callPattern callee).find? g.source = some m ∧
    (split ',' (m.group 0))[position - 1]? = some piece ∧
    argument = trimMatches (· == ')') (trimMatches (· == ' ') piece)

theorem argument?_exact {callee argument : String} {position : Nat} {g : Go.Function} :
    argument? callee position g = some argument ↔ Passes callee position g argument := by
  unfold argument? Passes
  cases (callPattern callee).find? g.source with
  | none => simp
  | some m =>
    simp only [Option.map_eq_some_iff, Option.some.injEq, exists_eq_left', exists_and_left]
    exact exists_congr fun _ => and_congr_right fun _ => eq_comm

def PassesNothing (callee : String) (position : Nat) (g : Go.Function) : Prop :=
  g.name ≠ callee → ∀ argument, ¬Passes callee position g argument

-- In file order the first function of another name that passes anything.
structure FirstCaller (functions : List Go.Function) (callee : String) (position : Nat)
    (g : Go.Function) (argument : String) : Prop where
  other : g.name ≠ callee
  passes : Passes callee position g argument
  first : ∃ before after, functions = before ++ g :: after ∧
    ∀ h ∈ before, PassesNothing callee position h

variable {c : Convention} {functions : List Go.Function} {callee argument : String} {position : Nat}
  {g : Go.Function}

theorem passesNothing_iff :
    (if g.name == callee then none else (argument? callee position g).map (g, ·)) = none ↔
      PassesNothing callee position g := by
  unfold PassesNothing
  simp only [← argument?_exact]
  by_cases same : g.name = callee
  · simp [same]
  · simp [same, Option.eq_none_iff_forall_ne_some]

theorem caller?_exact :
    caller? functions callee position = some (g, argument) ↔
      FirstCaller functions callee position g argument := by
  unfold caller?
  rw [List.findSome?_eq_some_iff]
  simp only [passesNothing_iff]
  constructor
  · rintro ⟨before, h, after, whole, found, others⟩
    split at found
    · cases found
    · rename_i other
      obtain ⟨passed, given, same⟩ := Option.map_eq_some_iff.mp found
      cases same
      exact ⟨by simpa using other, argument?_exact.mp given, before, after, whole, others⟩
  · rintro ⟨other, passes, before, after, whole, others⟩
    refine ⟨before, g, after, whole, ?_, others⟩
    rw [if_neg (by simpa using other), argument?_exact.mpr passes]
    rfl

theorem caller?_none :
    caller? functions callee position = none ↔ ∀ h ∈ functions, PassesNothing callee position h := by
  unfold caller?
  rw [List.findSome?_eq_none_iff]
  simp only [passesNothing_iff]

theorem FirstCaller.mem (caller : FirstCaller functions callee position g argument) : g ∈ functions := by
  obtain ⟨before, after, rfl, _⟩ := caller.first
  simp

-- A variable in a function.
structure Link where
  receiver : String
  function : Go.Function

def Link.parameter? (c : Convention) (x : Link) : Option ParameterClient :=
  Trace.parameter? c x.receiver x.function

-- The constructor that the function's text names: by a declaration, else by a helper that chooses.
def Link.named? (c : Convention) (x : Link) : Option String :=
  (c.declaredClient? x.receiver x.function.source).or (chosenClient? x.receiver x.function.source)

-- The variable is a client parameter, and the first caller passes another variable for it.
structure Receives (c : Convention) (functions : List Go.Function) (x y : Link) : Prop where
  passed : ∃ position, x.parameter? c = some (.viaCaller position) ∧
    FirstCaller functions x.function.name position y.function y.receiver
  plain : '(' ∉ y.receiver.toList

inductive Stops (c : Convention) (functions : List Go.Function) (x : Link) :
    Except Miss Binding → Prop where
  | named {name : String} (unpassed : c.kind = .rest → x.parameter? c = none)
      (named : x.named? c = some name) : Stops c functions x (.ok ⟨x.receiver, name⟩)
  | typed {name : String} (generated : c.kind = .generated) (unnamed : x.named? c = none)
      (typed : x.parameter? c = some (.typed name)) : Stops c functions x (.ok ⟨x.receiver, name⟩)
  | undeclared (unpassed : x.parameter? c = none) (unnamed : x.named? c = none) :
      Stops c functions x (.error (.undeclared x.receiver x.function.name))
  | noCaller {position : Nat} (parameter : x.parameter? c = some (.viaCaller position))
      (nobody : ∀ h ∈ functions, PassesNothing x.function.name position h) :
      Stops c functions x (.error (.noCaller x.receiver x.function.name))
  | complexArgument {position : Nat} {g : Go.Function} {argument : String}
      (parameter : x.parameter? c = some (.viaCaller position))
      (caller : FirstCaller functions x.function.name position g argument)
      (call : '(' ∈ argument.toList) : Stops c functions x (.error (.complexArgument g.name argument))

theorem Link.parameter?_rest {x : Link} {p : ParameterClient} (rest : c.kind = .rest)
    (found : x.parameter? c = some p) : ∃ position, p = .viaCaller position := by
  simp only [Link.parameter?, Trace.parameter?, Convention.parameterClient?, rest] at found
  obtain ⟨m, _, rfl⟩ := Option.map_eq_some_iff.mp found
  exact ⟨_, rfl⟩

theorem Link.parameter?_generated {x : Link} {p : ParameterClient} (generated : c.kind = .generated)
    (found : x.parameter? c = some p) : ∃ name, p = .typed name := by
  simp only [Link.parameter?, Trace.parameter?, Convention.parameterClient?, generated] at found
  split at found
  · cases found
  · obtain ⟨m, _, rfl⟩ := Option.map_eq_some_iff.mp found
    exact ⟨_, rfl⟩

theorem step_viaCaller {x : Link} (parameter : x.parameter? c = some (.viaCaller position)) :
    step c functions x.receiver x.function = stepToCaller functions x.receiver x.function position := by
  have parameter' : Trace.parameter? c x.receiver x.function = some (.viaCaller position) := parameter
  cases kind : c.kind with
  | rest => simp only [step, kind, parameter']
  | generated =>
    obtain ⟨_, typed⟩ := Link.parameter?_generated kind parameter
    cases typed

theorem Stops.step {x : Link} {result : Except Miss Binding} (stops : Stops c functions x result) :
    (step c functions x.receiver x.function).value = .done result := by
  cases stops with
  | named unpassed named =>
    have declared : declared? c x.receiver x.function = some ⟨x.receiver, _⟩ :=
      congrArg (Option.map _) named
    unfold Trace.step
    cases kind : c.kind with
    | rest =>
      have parameter : parameter? c x.receiver x.function = none := unpassed kind
      simp only [parameter, declaredOrMiss, declared, Noted.value_pure]
    | generated => simp only [declared, Noted.value_pure]
  | typed generated unnamed typed =>
    have declared : declared? c x.receiver x.function = none := congrArg (Option.map _) unnamed
    have parameter : parameter? c x.receiver x.function = some (.typed _) := typed
    simp only [Trace.step, generated, declared, parameter, Noted.value_pure]
  | undeclared unpassed unnamed =>
    have declared : declared? c x.receiver x.function = none := congrArg (Option.map _) unnamed
    have parameter : parameter? c x.receiver x.function = none := unpassed
    unfold Trace.step
    cases c.kind <;> simp only [parameter, declaredOrMiss, declared, Noted.value_pure]
  | noCaller parameter nobody =>
    rw [step_viaCaller parameter, stepToCaller, caller?_none.mpr nobody]
    rfl
  | complexArgument parameter caller call =>
    rw [step_viaCaller parameter, stepToCaller, caller?_exact.mpr caller]
    simp only [containsChar, List.contains_iff_mem, call, if_true, Noted.value_bind, Noted.value_pure]

theorem Receives.step {x y : Link} (receives : Receives c functions x y) :
    (step c functions x.receiver x.function).value = .goTo y.receiver y.function := by
  obtain ⟨position, parameter, caller⟩ := receives.passed
  rw [step_viaCaller parameter, stepToCaller, caller?_exact.mpr caller]
  simp only [containsChar, List.contains_iff_mem, receives.plain, if_false, Noted.value_pure]

-- All that a step can do.
theorem stops_or_receives (c : Convention) (functions : List Go.Function) (x : Link) :
    (∃ result, Stops c functions x result) ∨ ∃ y, Receives c functions x y := by
  have viaCaller : ∀ position, x.parameter? c = some (.viaCaller position) →
      (∃ result, Stops c functions x result) ∨ ∃ y, Receives c functions x y := by
    intro position parameter
    cases found : caller? functions x.function.name position with
    | none => exact .inl ⟨_, .noCaller parameter (caller?_none.mp found)⟩
    | some passed =>
      have caller := caller?_exact.mp found
      by_cases call : '(' ∈ passed.2.toList
      · exact .inl ⟨_, .complexArgument parameter caller call⟩
      · exact .inr ⟨⟨passed.2, passed.1⟩, ⟨position, parameter, caller⟩, call⟩
  cases parameter : x.parameter? c with
  | none =>
    cases named : x.named? c with
    | none => exact .inl ⟨_, .undeclared parameter named⟩
    | some name => exact .inl ⟨_, .named (fun _ => parameter) named⟩
  | some p =>
    cases kind : c.kind with
    | rest =>
      obtain ⟨position, rfl⟩ := Link.parameter?_rest kind parameter
      exact viaCaller position parameter
    | generated =>
      obtain ⟨typeName, rfl⟩ := Link.parameter?_generated kind parameter
      cases named : x.named? c with
      | none => exact .inl ⟨_, .typed kind named parameter⟩
      | some name => exact .inl ⟨_, .named (fun rest => nomatch kind.symm.trans rest) named⟩

-- Whether a step stops is seen where it starts; that it would come back to a function of the chain is
-- not.
inductive Ends (c : Convention) (functions : List Go.Function) (visited : List String) (x : Link) :
    Except Miss Binding → Prop where
  | stops {result : Except Miss Binding} (stops : Stops c functions x result) :
      Ends c functions visited x result
  | cycle {y : Link} (receives : Receives c functions x y) (again : y.function.name ∈ visited) :
      Ends c functions visited x (.error (.cycle y.function.name))

theorem Ends.of_subset {visited more : List String} {x : Link} {result : Except Miss Binding}
    (ends : Ends c functions visited x result) (part : visited ⊆ more) :
    Ends c functions more x result := by
  cases ends with
  | stops stops => exact .stops stops
  | cycle receives again => exact .cycle receives (part again)

def names (chain : List Link) : List String := chain.map (·.function.name)

-- A chain from one link to another, through functions of pairwise different names.
structure Chain (c : Convention) (functions : List Go.Function) (start : Link) (chain : List Link)
    (last : Link) : Prop where
  first : chain.head? = some start
  final : chain.getLast? = some last
  linked : chain.IsChain (Receives c functions)
  apart : (names chain).Nodup

theorem Chain.single (x : Link) : Chain c functions x [x] x :=
  ⟨rfl, rfl, .singleton x, by simp [names]⟩

-- The names visited are names of the file, or that of the function in which the trace began, so
-- there is room for as many steps as there are names left.
structure Room (functions : List Go.Function) (start : String) (n : Nat) (visited : List String)
    (x : Link) : Prop where
  distinct : visited.Nodup
  known : visited ⊆ start :: functions.map (·.name)
  here : x.function.name ∈ start :: functions.map (·.name)
  room : functions.length + 1 < n + visited.length

variable {origin : String} {n : Nat} {visited : List String} {x y last : Link} {chain : List Link}

theorem Room.start (functions : List Go.Function) (x : Link) :
    Room functions x.function.name (functions.length + 2) [] x :=
  ⟨.nil, nofun, List.mem_cons_self, by simp⟩

theorem Room.pos (room : Room functions origin n visited x) : 0 < n := by
  have bound := room.distinct.length_le_of_subset room.known
  have := room.room
  simp only [List.length_cons, List.length_map] at bound
  omega

theorem Room.next (room : Room functions origin (n + 1) visited x) (new : x.function.name ∉ visited)
    (member : y.function ∈ functions) : Room functions origin n (x.function.name :: visited) y where
  distinct := List.nodup_cons.mpr ⟨new, room.distinct⟩
  known := List.cons_subset.mpr ⟨room.here, room.known⟩
  here := List.mem_cons_of_mem _ (List.mem_map_of_mem member)
  room := by
    have := room.room
    simp only [List.length_cons]
    omega

theorem Receives.mem (receives : Receives c functions x y) : y.function ∈ functions := by
  obtain ⟨_, _, caller⟩ := receives.passed
  exact caller.mem

theorem follow_old (old : x.function.name ∈ visited) :
    (follow c functions n visited x.receiver x.function).value = .error (.cycle x.function.name) := by
  cases n with
  | zero => rfl
  | succ n => simp only [follow, List.contains_iff_mem, old, if_true, Noted.value_pure]

theorem follow_stops {result : Except Miss Binding} (new : x.function.name ∉ visited)
    (stops : Stops c functions x result) :
    (follow c functions (n + 1) visited x.receiver x.function).value = result := by
  simp only [follow, List.contains_iff_mem, new, if_false, Noted.value_bind, stops.step]
  rfl

theorem follow_receives (new : x.function.name ∉ visited) (receives : Receives c functions x y) :
    (follow c functions (n + 1) visited x.receiver x.function).value =
      (follow c functions n (x.function.name :: visited) y.receiver y.function).value := by
  simp only [follow, List.contains_iff_mem, new, if_false, Noted.value_bind, receives.step]

-- By induction on the bound: a chain leads on from where the trace stands, past the names visited.
theorem follow_chain (room : Room functions origin n visited x) (new : x.function.name ∉ visited) :
    ∃ chain last, Chain c functions x chain last ∧ (∀ name ∈ names chain, name ∉ visited) ∧
      Ends c functions (names chain ++ visited) last
        (follow c functions n visited x.receiver x.function).value := by
  induction n generalizing visited x with
  | zero => exact absurd room.pos (Nat.lt_irrefl 0)
  | succ n ih =>
    rcases stops_or_receives c functions x with ⟨result, stops⟩ | ⟨y, receives⟩
    · refine ⟨[x], x, .single x, by simpa [names] using new, ?_⟩
      rw [follow_stops new stops]
      exact .stops stops
    · rw [follow_receives new receives]
      by_cases old : y.function.name ∈ x.function.name :: visited
      · refine ⟨[x], x, .single x, by simpa [names] using new, ?_⟩
        rw [follow_old old]
        exact .cycle receives old
      · obtain ⟨chain, last, traced, apart, ends⟩ := ih (room.next new receives.mem) old
        obtain ⟨rest, rfl⟩ := List.head?_eq_some_iff.mp traced.first
        have away : x.function.name ∉ names (y :: rest) :=
          fun member => apart _ member List.mem_cons_self
        refine ⟨x :: y :: rest, last, ⟨rfl, ?_, ?_, List.nodup_cons.mpr ⟨away, traced.apart⟩⟩, ?_, ?_⟩
        · rw [List.getLast?_cons_cons]
          exact traced.final
        · exact .cons_cons receives traced.linked
        · intro name member
          rcases List.mem_cons.mp member with rfl | later
          · exact new
          · exact fun old => apart name later (List.mem_cons_of_mem _ old)
        · refine ends.of_subset fun name member => ?_
          simpa [names, or_assoc, or_comm, or_left_comm] using member

-- Along a chain the trace cannot do anything else.
theorem Chain.follow {result : Except Miss Binding} (traced : Chain c functions x chain last)
    (apart : ∀ name ∈ names chain, name ∉ visited)
    (ends : Ends c functions (names chain ++ visited) last result) (enough : chain.length ≤ n) :
    (follow c functions n visited x.receiver x.function).value = result := by
  induction chain generalizing visited x n with
  | nil => cases traced.first
  | cons z rest ih =>
    cases traced.first
    have new : z.function.name ∉ visited := apart _ List.mem_cons_self
    obtain ⟨n, rfl⟩ : ∃ m, n = m + 1 := ⟨n - 1, by simp only [List.length_cons] at enough; omega⟩
    cases rest with
    | nil =>
      cases traced.final
      cases ends with
      | stops stops => exact follow_stops new stops
      | cycle receives again =>
        rw [follow_receives new receives]
        exact follow_old again
    | cons y rest =>
      obtain ⟨receives, linked⟩ := List.isChain_cons_cons.mp traced.linked
      obtain ⟨away, distinct⟩ := List.nodup_cons.mp traced.apart
      rw [follow_receives new receives]
      refine ih ⟨rfl, ?_, linked, distinct⟩ ?_ ?_ (by simpa using enough)
      · exact List.getLast?_cons_cons ▸ traced.final
      · intro name member old
        rcases List.mem_cons.mp old with rfl | old
        · exact away member
        · exact apart name (List.mem_cons_of_mem _ member) old
      · refine ends.of_subset fun name member => ?_
        simpa [names, or_assoc, or_comm, or_left_comm] using member

theorem Chain.names_known (traced : Chain c functions x chain last) :
    names chain ⊆ x.function.name :: functions.map (·.name) := by
  induction chain generalizing x with
  | nil => exact nofun
  | cons z rest ih =>
    cases traced.first
    refine List.cons_subset.mpr ⟨List.mem_cons_self, ?_⟩
    cases rest with
    | nil => exact nofun
    | cons y rest =>
      obtain ⟨receives, linked⟩ := List.isChain_cons_cons.mp traced.linked
      have final := traced.final
      rw [List.getLast?_cons_cons] at final
      have later := ih ⟨rfl, final, linked, (List.nodup_cons.mp traced.apart).2⟩
      intro name member
      rcases List.mem_cons.mp (later member) with rfl | known
      · exact List.mem_cons_of_mem _ (List.mem_map_of_mem receives.mem)
      · exact List.mem_cons_of_mem _ known

theorem Chain.length_le (traced : Chain c functions x chain last) :
    chain.length ≤ functions.length + 1 := by
  simpa [names] using traced.apart.length_le_of_subset traced.names_known

theorem bind_congr_value {α β : Type} {m : Noted α} {k k' : α → Noted β} (same : k m.value = k' m.value) :
    m >>= k = m >>= k' :=
  congrArg (fun r : Noted β => (⟨r.value, m.notices ++ r.notices⟩ : Noted β)) same

-- A larger bound changes nothing, so the trace is what it would be without one.
theorem follow_bound (room : Room functions origin n visited x) (more : Nat) :
    follow c functions (n + more) visited x.receiver x.function =
      follow c functions n visited x.receiver x.function := by
  induction n generalizing visited x with
  | zero => exact absurd room.pos (Nat.lt_irrefl 0)
  | succ n ih =>
    rw [Nat.succ_add_eq_add_succ, Nat.add_succ]
    simp only [follow, List.contains_iff_mem]
    split
    · rfl
    · rename_i new
      refine bind_congr_value ?_
      rcases stops_or_receives c functions x with ⟨result, stops⟩ | ⟨y, receives⟩
      · rw [stops.step]
      · rw [receives.step]
        exact ih (room.next new receives.mem)

theorem Chain.alone (generated : c.kind = .generated) (traced : Chain c functions x chain last) :
    chain = [x] := by
  obtain ⟨rest, rfl⟩ := List.head?_eq_some_iff.mp traced.first
  cases rest with
  | nil => rfl
  | cons y rest =>
    obtain ⟨position, parameter, _⟩ := (List.isChain_cons_cons.mp traced.linked).1.passed
    obtain ⟨_, typed⟩ := Link.parameter?_generated generated parameter
    cases typed

theorem Ends.undeclared (generated : c.kind = .generated) {miss : Miss}
    (ends : Ends c functions visited x (.error miss)) : miss = .undeclared x.receiver x.function.name := by
  have typed : ∀ position, x.parameter? c ≠ some (.viaCaller position) := by
    intro position parameter
    obtain ⟨_, typed⟩ := Link.parameter?_generated generated parameter
    cases typed
  cases ends with
  | stops stops =>
    cases stops with
    | undeclared => rfl
    | noCaller parameter => exact absurd parameter (typed _)
    | complexArgument parameter => exact absurd parameter (typed _)
  | cycle receives =>
    obtain ⟨position, parameter, _⟩ := receives.passed
    exact absurd parameter (typed position)

-- A trace gives exactly what its chain leads to, as if its steps were not bounded. In generated
-- packages it never leaves the function in which it begins.
theorem resolve_by_chain (c : Convention) (file : Go.SourceFile) (receiver : String) (f : Go.Function) :
    (∀ result, (resolve c file receiver f).value = result ↔
      ∃ chain last, Chain c file.functions ⟨receiver, f⟩ chain last ∧
        Ends c file.functions (names chain) last result) ∧
      (∀ n, file.functions.length + 2 ≤ n →
        follow c file.functions n [] receiver f = resolve c file receiver f) ∧
      (c.kind = .generated →
        (∀ chain last, Chain c file.functions ⟨receiver, f⟩ chain last → chain = [⟨receiver, f⟩]) ∧
          ∀ miss, (resolve c file receiver f).value = .error miss → miss = .undeclared receiver f.name) := by
  have room := Room.start file.functions ⟨receiver, f⟩
  have chained : ∀ result, (resolve c file receiver f).value = result ↔
      ∃ chain last, Chain c file.functions ⟨receiver, f⟩ chain last ∧
        Ends c file.functions (names chain) last result := by
    intro result
    constructor
    · rintro rfl
      obtain ⟨chain, last, traced, _, ends⟩ := follow_chain (c := c) room nofun
      rw [List.append_nil] at ends
      exact ⟨chain, last, traced, ends⟩
    · rintro ⟨chain, last, traced, ends⟩
      refine traced.follow nofun ?_ (Nat.le_succ_of_le traced.length_le)
      rwa [List.append_nil]
  refine ⟨chained, ?_, ?_⟩
  · intro n enough
    obtain ⟨more, rfl⟩ := Nat.exists_eq_add_of_le enough
    exact follow_bound room more
  · intro generated
    refine ⟨fun chain last traced => traced.alone generated, ?_⟩
    intro miss missed
    obtain ⟨chain, last, traced, ends⟩ := (chained _).mp missed
    cases traced.alone generated
    cases traced.final
    exact ends.undeclared generated

def declared (name params body : String) : Go.Function where
  name := name
  source := "func " ++ name ++ params ++ body
  params := params
  start := 0
  stop := 0
  line := 1
  isMethod := false

def wait : Go.Function := declared "wait" "(d *D, client *golangsdk.ServiceClient)" "\x7b\x7d"

def ping : Go.Function := declared "ping" "(client *golangsdk.ServiceClient)" "\x7b\n\tpong(client)\n\x7d"

def servers : Go.SourceFile where
  path := ⟨"a.go"⟩
  source := ""
  package := none
  imports := []
  literals := []
  functions :=
    [wait, declared "refresh" "(client *golangsdk.ServiceClient)" "\x7b\n\twait(d, client)\n\x7d",
      declared "create" "()" "\x7b\n\tc, err := cfg.ComputeV1Client(r)\n\trefresh(c)\n\x7d", ping,
      declared "pong" "(client *golangsdk.ServiceClient)" "\x7b\n\tping(client)\n\x7d"]

def told : Except Miss Binding → Miss ⊕ Binding
  | .error miss => .inl miss
  | .ok binding => .inr binding

theorem told_inj {r r' : Except Miss Binding} (same : told r = told r') : r = r' := by
  cases r <;> cases r' <;> cases same <;> rfl

def shared : Convention := .of .rest none

theorem resolve_by_chain_servers :
    (∃ chain last, Chain shared servers.functions ⟨"client", wait⟩ chain last ∧
      Ends shared servers.functions (names chain) last (.ok ⟨"c", "ComputeV1Client"⟩)) ∧
      (∃ chain last, Chain shared servers.functions ⟨"client", ping⟩ chain last ∧
        Ends shared servers.functions (names chain) last (.error (.cycle "ping"))) ∧
      (5 + 2 ≤ 1000 ∧ follow shared servers.functions 1000 [] "client" ping =
        resolve shared servers "client" ping) ∧
      (Kind.generated = .generated ∧ ∀ chain last,
        Chain (.of .generated none) servers.functions ⟨"client", wait⟩ chain last →
          chain = [⟨"client", wait⟩]) := by
  refine ⟨?_, ?_, ⟨by decide, ?_⟩, rfl, ?_⟩
  · exact ((resolve_by_chain shared servers "client" wait).1 _).mp
      (told_inj (by decide +kernel : told _ = told (.ok ⟨"c", "ComputeV1Client"⟩)))
  · exact ((resolve_by_chain shared servers "client" ping).1 _).mp
      (told_inj (by decide +kernel : told _ = told (.error (.cycle "ping"))))
  · exact (resolve_by_chain shared servers "client" ping).2.1 1000 (by decide)
  · exact ((resolve_by_chain (.of .generated none) servers "client" wait).2.2 rfl).1

end CallAtlas.Trace
