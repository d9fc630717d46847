import PolicyEngine.Proofs.Template.Admitted

/-!
# Refused module changes

The store refuses a change if it has something against one of the modules that the change puts: the
source declares no package, or another one, or is none that the evaluator parses. The error names
the first such module, where the packages of all modules are looked at before any source is parsed.
For a source that is not parsed the name is read off the file name that the evaluator reports, from
which every extension at the end is taken. So a module whose own path ends like a file name is
reported under a shorter name, which may be that of another module or of none.

## Main definitions

* `PolicyEngine.Store.Offends` — what the store has against a module.
* `PolicyEngine.Store.IsFirstOffender` — the module for which a change is refused.
* `PolicyEngine.Store.IsStem` — a file name without its extensions.

## Main results

* `PolicyEngine.ModuleChange.isStem_diagnosticName` — the names of modules that are not parsed.
* `PolicyEngine.Store.prepare_refusal` — when a change is refused, and the module that is named.
* `PolicyEngine.Store.exists_misnamed` — a change refused for a module that it does not put.
-/

namespace PolicyEngine

namespace Store

/-- What the store has against a source as the module of an identifier. -/
inductive Offends (ev : Evaluator) (id : ModuleId) (source : String) : ModuleFault → Prop
  | missingPackage (h : RuleText.findPackage? source = none) : Offends ev id source .missingPackage
  | otherPackage {decl : RuleText.PackageDecl} (h : RuleText.findPackage? source = some decl)
      (hne : decl.path ≠ id.path) : Offends ev id source (.otherPackage decl.path id.path)
  | parse (h : ev.parses source = false) : Offends ev id source .parse

/-- A module is the first of a change that the store has something against. Packages are looked at
before any source is parsed. -/
structure IsFirstOffender (ev : Evaluator) (change : ModuleChange) (id : ModuleId)
    (source : String) (fault : ModuleFault) : Prop where
  offends : Offends ev id source fault
  first : ∃ front back, change.puts = front ++ (id, source) :: back ∧
    ∀ m ∈ front, ∀ fault', Offends ev m.1 m.2 fault' → fault' = .parse ∧ fault ≠ .parse
  packages : fault = .parse →
    ∀ m ∈ change.puts, ∀ fault', Offends ev m.1 m.2 fault' → fault' = .parse

/-- A path goes on from a name with any number of extensions of files. -/
inductive ExtensionOf (name : String) : String → Prop
  | same : ExtensionOf name name
  | extension {path : String} (h : ExtensionOf name path) : ExtensionOf name (path ++ ".rego")

/-- A name is what is left of a path without its extensions. -/
structure IsStem (name path : String) : Prop where
  extensionOf : ExtensionOf name path
  ne_extension : ∀ stem, name ≠ stem ++ ".rego"

/-- A path without an extension is its own stem. -/
theorem IsStem.eq_of_ne {name path : String} (h : IsStem name path)
    (hpath : ∀ stem, path ≠ stem ++ ".rego") : name = path := by
  rcases h.extensionOf with _ | ⟨-⟩
  · rfl
  · exact absurd rfl (hpath _)

end Store

namespace ModuleChange

open Store

variable {ev : Evaluator} {change : ModuleChange} {id : ModuleId} {source : String}

/-! ### Names of files -/

theorem extensionOf_stripExtensions (reversed : List Char) :
    ExtensionOf (String.ofList (stripExtensions reversed).reverse)
      (String.ofList reversed.reverse) := by
  fun_induction stripExtensions reversed with
  | case1 rest ih =>
    have hpath : String.ofList ('o' :: 'g' :: 'e' :: 'r' :: '.' :: rest).reverse =
        String.ofList rest.reverse ++ ".rego" := by
      apply String.toList_injective
      simp
    rw [hpath]
    exact .extension ih
  | case2 => exact .same

theorem stripExtensions_ne (reversed rest : List Char) :
    stripExtensions reversed ≠ 'o' :: 'g' :: 'e' :: 'r' :: '.' :: rest := by
  fun_induction stripExtensions reversed with
  | case1 _ ih => exact ih
  | case2 cs hne => exact hne rest

/-- In the evaluator's diagnostics a module goes by its path without its extensions. -/
theorem isStem_diagnosticName (id : ModuleId) : IsStem (diagnosticName id) id.path where
  extensionOf := by
    have h := extensionOf_stripExtensions id.path.toList.reverse
    rwa [List.reverse_reverse, String.ofList_toList] at h
  ne_extension stem hstem := by
    refine stripExtensions_ne id.path.toList.reverse stem.toList.reverse ?_
    have hchars := congrArg (fun text => text.toList.reverse) hstem
    simpa [diagnosticName] using hchars

/-! ### Offenders -/

theorem packageFault?_eq_some_iff (ev : Evaluator) {e : StoreError} :
    packageFault? id source = some e ↔
      ∃ fault, fault ≠ .parse ∧ Offends ev id source fault ∧ e = .module id.path fault := by
  rw [packageFault?]
  constructor
  · intro h
    split at h
    · rename_i hfind
      exact ⟨_, ModuleFault.noConfusion, .missingPackage hfind, (Option.some.inj h).symm⟩
    · rename_i decl hfind
      split at h
      · cases h
      · rename_i hne
        exact ⟨_, ModuleFault.noConfusion, .otherPackage hfind hne, (Option.some.inj h).symm⟩
  · rintro ⟨fault, hfault, hoffends, rfl⟩
    rcases hoffends with hfind | ⟨hfind, hne⟩ | -
    · rw [hfind]
    · rw [hfind]
      exact if_neg hne
    · exact absurd rfl hfault

/-- Nothing is wrong with the package of a module if the store has at most against it that the
source is not parsed. -/
theorem packageFault?_eq_none_iff_forall (ev : Evaluator) : packageFault? id source = none ↔
    ∀ fault, Offends ev id source fault → fault = .parse := by
  rw [Option.eq_none_iff_forall_ne_some]
  constructor
  · intro h fault hoffends
    by_contra hfault
    exact h _ ((packageFault?_eq_some_iff ev).2 ⟨fault, hfault, hoffends, rfl⟩)
  · intro h e he
    obtain ⟨fault, hfault, hoffends, -⟩ := (packageFault?_eq_some_iff ev).1 he
    exact hfault (h fault hoffends)

/-- What is wrong with a change is wrong with the first offender, under the name of its path or its
file. -/
theorem exists_isFirstOffender {e : StoreError} (h : change.fault? ev = some e) :
    ∃ id source fault, IsFirstOffender ev change id source fault ∧
      (fault ≠ .parse ∧ e = .module id.path fault ∨
        fault = .parse ∧ e = .module (diagnosticName id) fault) := by
  rw [fault?] at h
  split at h
  · rename_i e' hsome
    obtain rfl := Option.some.inj h
    obtain ⟨front, ⟨id, source⟩, back, hputs, hfault, hfront⟩ := List.findSome?_eq_some_iff.1 hsome
    obtain ⟨fault, hparse, hoffends, rfl⟩ := (packageFault?_eq_some_iff ev).1 hfault
    refine ⟨id, source, fault, ⟨hoffends, ⟨front, back, hputs, fun m hm fault' hoffends' => ?_⟩,
      fun heq => absurd heq hparse⟩, .inl ⟨hparse, rfl⟩⟩
    exact ⟨(packageFault?_eq_none_iff_forall ev).1 (hfront m hm) fault' hoffends', hparse⟩
  · rename_i hnone
    have hpackages : ∀ m ∈ change.puts, ∀ fault', Offends ev m.1 m.2 fault' → fault' = .parse :=
      fun m hm => (packageFault?_eq_none_iff_forall ev).1 (List.findSome?_eq_none_iff.1 hnone m hm)
    obtain ⟨⟨id, source⟩, hfind, rfl⟩ := Option.map_eq_some_iff.1 h
    obtain ⟨hparses, front, back, hputs, hfront⟩ := List.find?_eq_some_iff_append.1 hfind
    refine ⟨id, source, .parse, ⟨.parse (by simpa using hparses),
      ⟨front, back, hputs, fun m hm fault' hoffends => ?_⟩, fun _ => hpackages⟩, .inr ⟨rfl, rfl⟩⟩
    -- All packages are right, so an earlier offender would not be parsed either.
    obtain rfl := hpackages m (hputs ▸ List.mem_append_left _ hm) fault' hoffends
    cases hoffends with
    | parse hparse =>
      have hparsed := hfront m hm
      simp [hparse] at hparsed

end ModuleChange

namespace Store

variable {ev : Evaluator} {change : ModuleChange} {e : StoreError}

/-- The store admits what it has nothing against. -/
theorem admits_iff_forall_not_offends {m : ModuleId × String} :
    Admits ev m ↔ ∀ fault, ¬Offends ev m.1 m.2 fault := by
  constructor
  · rintro ⟨hpackage, hparses⟩ fault hoffends
    have hparse := (ModuleChange.packageFault?_eq_none_iff_forall ev).1
      (ModuleChange.packageFault?_eq_none_iff.2 hpackage) fault hoffends
    subst hparse
    cases hoffends with
    | parse hnot => simp [hnot] at hparses
  · intro h
    refine ⟨ModuleChange.packageFault?_eq_none_iff.1
      ((ModuleChange.packageFault?_eq_none_iff_forall ev).2
        fun fault hoffends => absurd hoffends (h fault)), ?_⟩
    by_contra hparses
    exact h .parse (.parse (Bool.not_eq_true _ ▸ hparses))

theorem prepare_eq_error_iff : prepare ev change = .error e ↔ change.fault? ev = some e := by
  rw [prepare]
  split
  · rename_i hnone
    simp [hnone]
  · rename_i hsome
    simp [hsome]

/-- **The module that a refusal names.** A change is refused if the store has something against one
of the modules that it puts, and for the first of them. The error names this module by its path,
unless the fault is that the source is not parsed: then it has the path without any extensions of
files at its end. So it names the module by its path whenever the path does not end like a file
name. -/
theorem prepare_refusal (ev : Evaluator) (change : ModuleChange) :
    ((∃ e, prepare ev change = .error e) ↔
      ∃ m ∈ change.puts, ∃ fault, Offends ev m.1 m.2 fault) ∧
    ∀ e, prepare ev change = .error e → ∃ id source fault name,
      (id, source) ∈ change.puts ∧ IsFirstOffender ev change id source fault ∧
      e = .module name fault ∧ (fault ≠ .parse → name = id.path) ∧
      (fault = .parse → IsStem name id.path) ∧
      ((∀ stem, id.path ≠ stem ++ ".rego") → name = id.path) := by
  constructor
  · rw [Outcome.exists_eq_error_iff, exists_prepare_eq_ok_iff]
    simp only [admits_iff_forall_not_offends]
    push Not
    rfl
  · intro e h
    obtain ⟨id, source, fault, hfirst, hname⟩ :=
      ModuleChange.exists_isFirstOffender (prepare_eq_error_iff.1 h)
    obtain ⟨front, back, hputs, -⟩ := hfirst.first
    have hmem : (id, source) ∈ change.puts := by simp [hputs]
    have hstem := ModuleChange.isStem_diagnosticName id
    rcases hname with ⟨hfault, rfl⟩ | ⟨rfl, rfl⟩
    · exact ⟨id, source, fault, id.path, hmem, hfirst, rfl, fun _ => rfl,
        fun hparse => absurd hparse hfault, fun _ => rfl⟩
    · exact ⟨id, source, .parse, _, hmem, hfirst, rfl, fun hparse => absurd rfl hparse,
        fun _ => hstem, hstem.eq_of_ne⟩

/-- A module whose path ends like a file name, with a source that is not finished. -/
def unfinished : ModuleId × String := (⟨"x.rego"⟩, "package x.rego\nallow if \x7b\n")

/-- A refusal may name a module that the change does not put: the only module is not parsed, and the
name that is reported lacks the end of its path. -/
theorem exists_misnamed : ∃ (ev : Evaluator) (change : ModuleChange) (name : String),
    change.puts = [unfinished] ∧ ModuleId.ofPath? "x.rego" = some unfinished.1 ∧
      (∀ source, ev.parses source = false ↔ source = unfinished.2) ∧
      prepare ev change = .error (.module name .parse) ∧ ∀ m ∈ change.puts, m.1.path ≠ name := by
  refine ⟨⟨fun source => source != unfinished.2, fun _ => .ok []⟩, { puts := [unfinished] }, "x",
    rfl, by decide +kernel, fun source => by simp, ?_, by decide⟩
  rw [prepare_eq_error_iff]
  decide +kernel

end Store

end PolicyEngine
