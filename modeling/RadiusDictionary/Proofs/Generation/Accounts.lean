import Mathlib.Algebra.GroupWithZero.Nat
import Mathlib.Data.List.Basic
import RadiusDictionary.Proofs.Generation.Calls
import RadiusDictionary.Proofs.Generation.Writes

/-! # What came of every attribute and every loader

Generation goes on after a failure, so a report has gaps. An `Account` says why: it is the tree of
an attribute with a failure marked wherever there was one. A file is left of what has no mark and
lies in nothing marked (`Account.files`), and every mark is a failure on record
(`Account.failures`).

The `accounts` of a run are computed along with it: an attribute that is reached has its `obstacle?`
for a mark, a loader its `loaderObstacle?`, and there is no other mark. The report of the run is
that of its accounts, file by file and failure by failure, and the failures are those of all calls
and all loaders that met an obstacle, one for each (`accounting`). None is missing where an
attribute fails in which others failed before. Without failures there is a file for every attribute
and for every loader. -/

namespace RadiusDictionary

open Generation

/-- The path of a file that was written, and the attribute whose module is there; none for a
loader. -/
def WrittenFile.origin (f : WrittenFile) : Path × Option Attribute :=
  match f.artifact with
  | .attributeModule m => (f.path, some m.subject)
  | .loaderModule _ => (f.path, none)

theorem WrittenFile.origin_attribute (place : Place) (scope : Scope) (a : Attribute) (ids : TypeIds)
    (nested : NestedModules) :
    origin ⟨place.file a.toDeclaration, ownArtifact scope place a ids nested⟩ =
      (place.file a.toDeclaration, some a) := by
  dsimp only [origin, ownArtifact, attributeModule]

/-! ### The account of an attribute -/

/-- What came of an attribute: why it failed, if it did, and what came of those nested in it. -/
structure Account where
  subject : Attribute
  failure : Option GenerationError
  nested : List Account

namespace Account

mutual

/-- All that is nested in the subject, at any depth, has its account. -/
def Complete : Account → Prop
  | ⟨a, _, nested⟩ => nested.map subject = a.nested.map (·.2) ∧ CompleteAll nested

/-- All that is nested in the subjects has its account. -/
def CompleteAll : List Account → Prop
  | [] => True
  | x :: rest => x.Complete ∧ CompleteAll rest

end

mutual

/-- The files that are left of an attribute at a place: those of nested attributes, then its own.
Nothing is left of one that failed. -/
def files (place : Place) : Account → List (Path × Option Attribute)
  | ⟨a, none, nested⟩ =>
    filesAll place a.toDeclaration nested ++ [(place.file a.toDeclaration, some a)]
  | ⟨_, some _, _⟩ => []

/-- The files that are left of attributes nested in `d` at a place. -/
def filesAll (place : Place) (d : Declaration) : List Account → List (Path × Option Attribute)
  | [] => []
  | x :: rest => x.files (place.below d x.subject.toDeclaration) ++ filesAll place d rest

end

mutual

/-- The failures: those of nested attributes, then the attribute's own. -/
def failures : Account → List Failure
  | ⟨a, failure, nested⟩ => failuresAll nested ++ failure.toList.map (⟨a.name, ·⟩)

/-- The failures of attributes and of those nested in them. -/
def failuresAll : List Account → List Failure
  | [] => []
  | x :: rest => x.failures ++ failuresAll rest

end

mutual

/-- The account of an attribute that was not reached. -/
def unreached : Attribute → Account
  | ⟨d, values, none⟩ => ⟨⟨d, values, none⟩, none, []⟩
  | ⟨d, values, some ⟨entries⟩⟩ => ⟨⟨d, values, some ⟨entries⟩⟩, none, unreachedAll entries⟩

/-- The accounts of attributes that were not reached. -/
def unreachedAll : List (String × Attribute) → List Account
  | [] => []
  | (_, a) :: rest => unreached a :: unreachedAll rest

end

theorem subject_unreached (a : Attribute) : (unreached a).subject = a := by
  obtain ⟨d, values, _ | ⟨entries⟩⟩ := a
  · rfl
  · rfl

theorem map_subject_unreachedAll (entries : List (String × Attribute)) :
    (unreachedAll entries).map subject = entries.map (·.2) := by
  induction entries with
  | nil => rfl
  | cons e rest ih =>
    obtain ⟨key, a⟩ := e
    rw [unreachedAll, List.map_cons, List.map_cons, subject_unreached, ih]

mutual

theorem complete_unreached : ∀ a : Attribute, (unreached a).Complete
  | ⟨_, _, none⟩ => ⟨rfl, trivial⟩
  | ⟨_, _, some ⟨entries⟩⟩ => ⟨map_subject_unreachedAll entries, completeAll_unreachedAll entries⟩

theorem completeAll_unreachedAll : ∀ entries : List (String × Attribute),
    CompleteAll (unreachedAll entries)
  | [] => trivial
  | (_, a) :: rest => ⟨complete_unreached a, completeAll_unreachedAll rest⟩

end

mutual

/-- What was not reached did not fail. -/
theorem failures_unreached : ∀ a : Attribute, (unreached a).failures = []
  | ⟨_, _, none⟩ => rfl
  | ⟨_, _, some ⟨entries⟩⟩ => by
    rw [unreached, failures, failuresAll_unreachedAll entries]
    rfl

theorem failuresAll_unreachedAll : ∀ entries : List (String × Attribute),
    failuresAll (unreachedAll entries) = []
  | [] => rfl
  | (_, a) :: rest => by
    rw [unreachedAll, failuresAll, failures_unreached a, failuresAll_unreachedAll rest]
    rfl

end

/-! ### Counting -/

theorem sum_count : ∀ entries : List (String × Attribute),
    ((entries.map (·.2)).map Attribute.count).sum = Attribute.countAll entries
  | [] => rfl
  | (_, a) :: rest => by
    rw [List.map_cons, List.map_cons, List.sum_cons, sum_count rest, Attribute.countAll]

theorem count_subject : ∀ a : Attribute,
    a.count = 1 + ((a.nested.map (·.2)).map Attribute.count).sum
  | ⟨_, _, none⟩ => rfl
  | ⟨_, _, some ⟨entries⟩⟩ => by
    rw [sum_count, Attribute.count]
    rfl

theorem filesAll_eq (place : Place) (d : Declaration) : ∀ xs : List Account,
    filesAll place d xs = xs.flatMap fun x => x.files (place.below d x.subject.toDeclaration)
  | [] => rfl
  | x :: rest => by rw [filesAll, filesAll_eq place d rest, List.flatMap_cons]

mutual

/-- Without a failure there is a file for every attribute. -/
theorem length_files : ∀ (x : Account) (place : Place), x.Complete → x.failures = [] →
    (x.files place).length = x.subject.count
  | ⟨a, none, nested⟩, place, hcomplete, hfailures => by
    rw [failures] at hfailures
    have hnested := length_flatMap_files nested
      (fun x => place.below a.toDeclaration x.subject.toDeclaration) hcomplete.2
      (List.append_eq_nil_iff.mp hfailures).1
    rw [hcomplete.1, ← filesAll_eq] at hnested
    show _ = a.count
    rw [files, List.length_append, hnested, count_subject, Nat.add_comm]
    rfl
  | ⟨a, some e, nested⟩, _, _, hfailures => by
    rw [failures] at hfailures
    cases (List.append_eq_nil_iff.mp hfailures).2

/-- So there is for every one of several attributes, wherever they stand. -/
theorem length_flatMap_files : ∀ (xs : List Account) (place : Account → Place),
    CompleteAll xs → failuresAll xs = [] →
    (xs.flatMap fun x => x.files (place x)).length = ((xs.map subject).map Attribute.count).sum
  | [], _, _, _ => rfl
  | x :: rest, place, hcomplete, hfailures => by
    rw [failuresAll] at hfailures
    obtain ⟨hx, hrest⟩ := List.append_eq_nil_iff.mp hfailures
    rw [List.flatMap_cons, List.length_append, length_files x _ hcomplete.1 hx,
      length_flatMap_files rest place hcomplete.2 hrest]
    rfl

end

end Account

/-! ### The account of a loader -/

/-- The namespace under which the failure of a loader is recorded. -/
def Plan.name (p : Plan) : String := (p.loader []).ns

/-- What came of a plan: why the loader failed, if it did, and what came of the attributes. -/
structure LoaderAccount where
  plan : Plan
  failure : Option GenerationError
  attributes : List Account

namespace LoaderAccount

/-- All attributes of the plan have their account. -/
def Complete (x : LoaderAccount) : Prop :=
  x.attributes.map (·.subject) = x.plan.attributes ∧ Account.CompleteAll x.attributes

/-- The files that are left: those of the attributes, then the loader unless it failed. -/
def files (x : LoaderAccount) : List (Path × Option Attribute) :=
  (x.attributes.flatMap fun y => y.files (.top x.plan.scope y.subject.toDeclaration)) ++
    if x.failure.isNone then [(x.plan.loaderPath, none)] else []

/-- The failure of the loader itself, if it failed. -/
def ownFailure? (x : LoaderAccount) : Option Failure := x.failure.map (⟨x.plan.name, ·⟩)

/-- The failures: those of the attributes, then the loader's. -/
def failures (x : LoaderAccount) : List Failure :=
  Account.failuresAll x.attributes ++ x.ownFailure?.toList

end LoaderAccount

/-- The failure of the attribute that is called for, if something keeps it from being generated. -/
def Call.failure? (t : Target) (c : Call) : Option Failure :=
  (obstacle? t c.scope c.place c.subject c.before).map (⟨c.subject.name, ·⟩)

namespace Generation

/-! ### The accounts of a run -/

mutual

/-- The account of generating an attribute: its mark is what keeps it from being generated, and
nothing nested in it is reached before its path is claimed. -/
def treeAccount (t : Target) (scope : Scope) (place : Place) : Attribute → Generation → Account
  | ⟨d, values, children⟩, g =>
    let a : Attribute := ⟨d, values, children⟩
    ⟨a, obstacle? t scope place a g,
      match (g.reach a).idsAt scope place a with
      | .error _ => Account.unreachedAll a.nested
      | .ok _ =>
        match ((g.reach a).setNumber d).claim? (place.file d) with
        | none => Account.unreachedAll a.nested
        | some g =>
          match children with
          | none => []
          | some ⟨entries⟩ => nestedAccounts t scope place d entries g⟩

/-- The accounts of generating the attributes nested in `d`. -/
def nestedAccounts (t : Target) (scope : Scope) (place : Place) (d : Declaration) :
    List (String × Attribute) → Generation → List Account
  | [], _ => []
  | (_, child) :: rest, g =>
    let place' := place.below d child.toDeclaration
    treeAccount t scope place' child g ::
      nestedAccounts t scope place d rest (attributeTree t scope place' child g).1

end

/-- The accounts of generating the attributes of a loader. -/
def scopeAccounts (t : Target) (scope : Scope) : List Attribute → Generation → List Account
  | [], _ => []
  | a :: rest, g =>
    treeAccount t scope (.top scope a.toDeclaration) a g ::
      scopeAccounts t scope rest (attributeTree t scope (.top scope a.toDeclaration) a g).1

/-- Why a loader is not generated, if it is not. -/
def loaderObstacle? (t : Target) (folder : Path) (m : LoaderModule) (g : Generation) :
    Option GenerationError :=
  match g.claim? (folder.joinText "mod.rs") with
  | none => some (.alreadyGenerated (folder.joinText "mod.rs"))
  | some g => (g.write t (folder.joinText "mod.rs") (.loaderModule m)).2

/-- The accounts of running plans. -/
def planAccounts (t : Target) : List Plan → Generation → List LoaderAccount
  | [], _ => []
  | p :: rest, g =>
    ⟨p, loaderObstacle? t p.scope.folder (p.loader (p.registrations t g)) (p.trees t g),
        scopeAccounts t p.scope p.attributes g⟩ ::
      planAccounts t rest (p.run t g)

/-- The accounts of generating a registry. -/
def accounts (t : Target) (r : Registry) (disk : Disk) : List LoaderAccount :=
  planAccounts t (plans t r) (.start disk)

section Ways

variable {t : Target} {scope : Scope} {place : Place} {a : Attribute} {g g' : Generation}
  {ids : TypeIds} {folder : Path} {m : LoaderModule}

theorem treeAccount_of_unresolved {e : GenerationError}
    (h : (g.reach a).idsAt scope place a = .error e) :
    treeAccount t scope place a g =
      ⟨a, obstacle? t scope place a g, Account.unreachedAll a.nested⟩ := by
  obtain ⟨d, values, children⟩ := a
  unfold treeAccount
  simp only [h]

theorem treeAccount_of_taken (hids : (g.reach a).idsAt scope place a = .ok ids)
    (h : ((g.reach a).setNumber a.toDeclaration).claim? (place.file a.toDeclaration) = none) :
    treeAccount t scope place a g =
      ⟨a, obstacle? t scope place a g, Account.unreachedAll a.nested⟩ := by
  obtain ⟨d, values, children⟩ := a
  unfold treeAccount
  simp only [hids, h]

theorem treeAccount_of_claimed (hids : (g.reach a).idsAt scope place a = .ok ids)
    (h : ((g.reach a).setNumber a.toDeclaration).claim? (place.file a.toDeclaration) = some g') :
    treeAccount t scope place a g =
      ⟨a, obstacle? t scope place a g,
        nestedAccounts t scope place a.toDeclaration a.nested g'⟩ := by
  obtain ⟨d, values, _ | ⟨⟨entries⟩⟩⟩ := a
  · unfold treeAccount
    simp only [hids, h]
    rfl
  · unfold treeAccount
    simp only [hids, h]
    rfl

theorem loaderObstacle?_of_taken (h : g.claim? (folder.joinText "mod.rs") = none) :
    loaderObstacle? t folder m g = some (.alreadyGenerated (folder.joinText "mod.rs")) := by
  unfold loaderObstacle?
  simp only [h]

theorem loaderObstacle?_of_claimed (h : g.claim? (folder.joinText "mod.rs") = some g') :
    loaderObstacle? t folder m g =
      (g'.write t (folder.joinText "mod.rs") (.loaderModule m)).2 := by
  unfold loaderObstacle?
  simp only [h]

end Ways

/-! ### What a part of a run adds to the report -/

/-- The report gains files and failures. -/
structure Reports (files : List (Path × Option Attribute)) (failures : List Failure)
    (g g' : Generation) : Prop where
  written : g'.written.map WrittenFile.origin = g.written.map WrittenFile.origin ++ files
  failures : g'.failures = g.failures ++ failures

section Reports

variable {files files' : List (Path × Option Attribute)} {failures failures' : List Failure}
  {g g' g'' : Generation}

theorem Reports.of_eq (hwritten : g'.written = g.written)
    (h : g'.failures = g.failures ++ failures) : Reports [] failures g g' :=
  ⟨by rw [hwritten, List.append_nil], h⟩

theorem Reports.refl (g : Generation) : Reports [] [] g g := .of_eq rfl (List.append_nil _).symm

/-- What was on record before is what is left when the rest is taken back. -/
theorem Reports.map_take (h : Reports files failures g g') :
    (g'.written.take g.written.length).map WrittenFile.origin =
      g.written.map WrittenFile.origin := by
  rw [List.map_take, h.written]
  exact List.take_left' (List.length_map _)

theorem Reports.trans (h : Reports files failures g g') (h' : Reports files' failures' g' g'') :
    Reports (files ++ files') (failures ++ failures') g g'' := by
  refine ⟨?_, ?_⟩
  · rw [h'.written, h.written, List.append_assoc]
  · rw [h'.failures, h.failures, List.append_assoc]

end Reports

/-- The account of an attribute at a place says what generating it adds to the report. -/
structure Accounts (place : Place) (a : Attribute) (x : Account) (g g' : Generation) : Prop where
  subject : x.subject = a
  complete : x.Complete
  reports : Reports (x.files place) x.failures g g'

/-- So do the accounts of attributes that are nested in `d`. -/
structure AccountsAll (place : Place) (d : Declaration) (entries : List (String × Attribute))
    (xs : List Account) (g g' : Generation) : Prop where
  subjects : xs.map (·.subject) = entries.map (·.2)
  complete : Account.CompleteAll xs
  reports : Reports (Account.filesAll place d xs) (Account.failuresAll xs) g g'

section Ways

variable {t : Target} {scope : Scope} {place : Place} {a : Attribute} {g g' after : Generation}

/-- An attribute that fails at once is marked, and nothing nested in it is reached. -/
theorem accounts_of_fail {e : GenerationError} (hwritten : g'.written = g.written)
    (h : g'.failures = g.failures ++ [⟨a.name, e⟩]) :
    Accounts place a ⟨a, some e, Account.unreachedAll a.nested⟩ g g' := by
  refine ⟨rfl, ⟨Account.map_subject_unreachedAll _, Account.completeAll_unreachedAll _⟩, ?_⟩
  rw [Account.files, Account.failures, Account.failuresAll_unreachedAll]
  exact .of_eq hwritten h

theorem failures_giveUp (g : Generation) (a : Attribute) (path : Path) :
    (g.giveUp a path).failures = g.failures ++ [⟨a.name, .alreadyGenerated path⟩] := by
  unfold giveUp
  split <;> rfl

/-- The last step marks the attribute if its own file cannot be written, and takes back what was
written for those nested in it. Their failures stay. -/
theorem accounts_close (t : Target) (scope : Scope) (ids : TypeIds) (nested : NestedModules)
    {xs : List Account} (h : AccountsAll place a.toDeclaration a.nested xs g after) :
    Accounts place a ⟨a, (after.write t (place.file a.toDeclaration)
        (ownArtifact scope place a ids nested)).2, xs⟩ g
      (close t scope place a ids g.written.length nested after).1 := by
  refine ⟨rfl, ⟨h.subjects, h.complete⟩, ?_⟩
  rcases hwrite : after.write t (place.file a.toDeclaration) (ownArtifact scope place a ids nested)
    with ⟨g', _ | e⟩
  · rw [close_of_write_eq_none hwrite]
    obtain ⟨disk, -, rfl⟩ := write_eq_none hwrite
    refine ⟨?_, ?_⟩
    · dsimp only
      rw [List.map_append, h.reports.written, List.append_assoc, Account.files, List.map_singleton,
        WrittenFile.origin_attribute]
    · rw [Account.failures, Option.toList_none, List.map_nil, List.append_nil]
      exact h.reports.failures
  · rw [close_of_write_eq_some hwrite]
    obtain ⟨disk, -, rfl⟩ := write_eq_some hwrite
    obtain ⟨events, hdiscard⟩ := discardFrom_eq (fail { after with disk } a.name e) g.written.length
    have hfailures : after.failures ++ [⟨a.name, e⟩] =
        g.failures ++ (Account.failuresAll xs ++ [⟨a.name, e⟩]) := by
      rw [h.reports.failures, List.append_assoc]
    rw [hdiscard]
    refine ⟨?_, ?_⟩
    · rw [Account.files, List.append_nil]
      exact h.reports.map_take
    · rw [Account.failures]
      exact hfailures

theorem treeInvariant_accounts (t : Target) (scope : Scope) : TreeInvariant t scope
    (fun place a g r => Accounts place a (treeAccount t scope place a g) g r.1)
    (fun place d entries g r =>
      AccountsAll place d entries (nestedAccounts t scope place d entries g) g r.1) where
  unresolved h := by
    rw [treeAccount_of_unresolved h, obstacle?_of_unresolved h]
    exact accounts_of_fail rfl rfl
  taken {place a g ids} hids h := by
    rw [treeAccount_of_taken hids h, obstacle?_of_taken hids h]
    refine accounts_of_fail ?_ (failures_giveUp _ a (place.file a.toDeclaration))
    obtain ⟨failures, events, hgiveUp⟩ := giveUp_eq ((g.reach a).setNumber a.toDeclaration) a
      (place.file a.toDeclaration)
    rw [hgiveUp]
    rfl
  claimed {place a g g' ids} hids h hnested := by
    obtain ⟨hsubject, hcomplete, hreports⟩ := accounts_close t scope ids
      (nestedTrees t scope place a.toDeclaration a.nested g').2 hnested
    rw [treeAccount_of_claimed hids h, obstacle?_of_claimed hids h]
    obtain ⟨-, rfl⟩ := claim?_eq_some h
    exact ⟨hsubject, hcomplete, hreports.written, hreports.failures⟩
  nil {_ _ g} := ⟨rfl, trivial, .refl g⟩
  cons {place d key child rest g} hchild hrest := by
    refine ⟨?_, ⟨hchild.complete, hrest.complete⟩, ?_⟩
    · rw [nestedAccounts, List.map_cons, List.map_cons, hchild.subject, hrest.subjects]
    · rw [nestedAccounts, Account.filesAll, Account.failuresAll, hchild.subject]
      exact hchild.reports.trans hrest.reports

end Ways

/-! ### Whole runs -/

theorem accounts_attributeTrees (t : Target) (scope : Scope) : ∀ (attributes : List Attribute)
    (g : Generation),
    (scopeAccounts t scope attributes g).map (·.subject) = attributes ∧
      Account.CompleteAll (scopeAccounts t scope attributes g) ∧
      Reports ((scopeAccounts t scope attributes g).flatMap fun x =>
          x.files (.top scope x.subject.toDeclaration))
        (Account.failuresAll (scopeAccounts t scope attributes g)) g
        (attributeTrees t scope attributes g).1
  | [], g => ⟨rfl, trivial, .refl g⟩
  | a :: rest, g => by
    have hown := (treeInvariant_accounts t scope).attributeTree a (.top scope a.toDeclaration) g
    obtain ⟨hsubjects, hcomplete, hreports⟩ := accounts_attributeTrees t scope rest
      (attributeTree t scope (.top scope a.toDeclaration) a g).1
    rw [scopeAccounts]
    refine ⟨?_, ⟨hown.complete, hcomplete⟩, ?_⟩
    · rw [List.map_cons, hown.subject, hsubjects]
    · rw [List.flatMap_cons, Account.failuresAll, hown.subject]
      exact hown.reports.trans hreports

/-- A loader is written, or its failure is recorded. -/
theorem reports_writeLoader (t : Target) (folder : Path) (m : LoaderModule) (g : Generation) :
    Reports
      (if (loaderObstacle? t folder m g).isNone then [(folder.joinText "mod.rs", none)] else [])
      ((loaderObstacle? t folder m g).toList.map (⟨m.ns, ·⟩)) g (g.writeLoader t folder m) := by
  have hway := loaderWay t folder m g
  generalize g.writeLoader t folder m = g'', loaderWrites t folder m g = files at hway ⊢
  cases hway with
  | taken hclaim =>
    rw [loaderObstacle?_of_taken hclaim]
    exact .of_eq rfl rfl
  | failed hclaim hwrite =>
    rw [loaderObstacle?_of_claimed hclaim, hwrite]
    obtain ⟨-, rfl⟩ := claim?_eq_some hclaim
    obtain ⟨disk, -, rfl⟩ := write_eq_some hwrite
    exact .of_eq rfl rfl
  | written hclaim hwrite =>
    rw [loaderObstacle?_of_claimed hclaim, hwrite]
    obtain ⟨-, rfl⟩ := claim?_eq_some hclaim
    obtain ⟨disk, -, rfl⟩ := write_eq_none hwrite
    have hfiles : List.map WrittenFile.origin
        (g.written ++ [⟨folder.joinText "mod.rs", .loaderModule m⟩]) =
        g.written.map WrittenFile.origin ++ [(folder.joinText "mod.rs", none)] :=
      List.map_append
    exact ⟨hfiles, (List.append_nil _).symm⟩

theorem reports_runPlans (t : Target) : ∀ (ps : List Plan) (g : Generation),
    (∀ p ∈ ps, ∀ regs, (p.loader regs).ns = p.name) →
    (planAccounts t ps g).map (·.plan) = ps ∧ (∀ x ∈ planAccounts t ps g, x.Complete) ∧
      Reports ((planAccounts t ps g).flatMap LoaderAccount.files)
        ((planAccounts t ps g).flatMap LoaderAccount.failures) g (runPlans t ps g)
  | [], g, _ => ⟨rfl, List.forall_mem_nil _, .refl g⟩
  | p :: rest, g, hnames => by
    obtain ⟨hname, hnames⟩ := List.forall_mem_cons.mp hnames
    obtain ⟨hsubjects, hcomplete, hattributes⟩ := accounts_attributeTrees t p.scope p.attributes g
    have hloader := reports_writeLoader t p.scope.folder (p.loader (p.registrations t g))
      (p.trees t g)
    obtain ⟨hplans, hrest, hreports⟩ := reports_runPlans t rest (p.run t g) hnames
    rw [hname, ← Option.toList_map] at hloader
    rw [planAccounts, List.map_cons, hplans, List.flatMap_cons, List.flatMap_cons]
    exact ⟨rfl, List.forall_mem_cons.mpr ⟨⟨hsubjects, hcomplete⟩, hrest⟩,
      (hattributes.trans hloader).trans hreports⟩

/-! ### One failure for each obstacle -/

theorem filterMap_cons_toList {α β : Type} (f : α → Option β) (x : α) (rest : List α) :
    (x :: rest).filterMap f = (f x).toList ++ rest.filterMap f := by
  rw [List.filterMap_eq_flatMap_toList, List.flatMap_cons, ← List.filterMap_eq_flatMap_toList]

/-- The call comes before those for nested attributes, and its failure after theirs. -/
theorem perm_failures_cons {t : Target} {scope : Scope} {place : Place} {a : Attribute}
    {g : Generation} {xs : List Account} {made : List Call}
    (h : (Account.failuresAll xs).Perm (made.filterMap (Call.failure? t))) :
    (Account.failures ⟨a, obstacle? t scope place a g, xs⟩).Perm
      ((⟨scope, place, a, g⟩ :: made).filterMap (Call.failure? t)) := by
  rw [Account.failures, filterMap_cons_toList, Call.failure?, Option.toList_map]
  exact (h.append_right _).trans List.perm_append_comm

/-- **Each call that meets an obstacle has a failure of its own.** -/
theorem treeInvariant_failures (t : Target) (scope : Scope) : TreeInvariant t scope
    (fun place a g _ => (treeAccount t scope place a g).failures.Perm
      ((treeCalls t scope place a g).filterMap (Call.failure? t)))
    (fun place d entries g _ =>
      (Account.failuresAll (nestedAccounts t scope place d entries g)).Perm
        ((nestedCalls t scope place d entries g).filterMap (Call.failure? t))) where
  unresolved {place a g e} h := by
    rw [treeAccount_of_unresolved h, treeCalls_of_unresolved h]
    exact perm_failures_cons (.of_eq (Account.failuresAll_unreachedAll _))
  taken hids h := by
    rw [treeAccount_of_taken hids h, treeCalls_of_taken hids h]
    exact perm_failures_cons (.of_eq (Account.failuresAll_unreachedAll _))
  claimed hids h hnested := by
    rw [treeAccount_of_claimed hids h, treeCalls_of_claimed hids h]
    exact perm_failures_cons hnested
  nil := .refl _
  cons hchild hrest := by
    rw [nestedAccounts, nestedCalls, Account.failuresAll, List.filterMap_append]
    exact hchild.append hrest

theorem perm_failures_scopeCalls (t : Target) (scope : Scope) : ∀ (attributes : List Attribute)
    (g : Generation), (Account.failuresAll (scopeAccounts t scope attributes g)).Perm
      ((scopeCalls t scope attributes g).filterMap (Call.failure? t))
  | [], _ => .refl _
  | a :: rest, g => by
    rw [scopeAccounts, scopeCalls, Account.failuresAll, List.filterMap_append]
    exact ((treeInvariant_failures t scope).attributeTree a (.top scope a.toDeclaration) g).append
      (perm_failures_scopeCalls t scope rest _)

theorem perm_failures_planCalls (t : Target) : ∀ (ps : List Plan) (g : Generation),
    ((planAccounts t ps g).flatMap LoaderAccount.failures).Perm
      ((planCalls t ps g).filterMap (Call.failure? t) ++
        (planAccounts t ps g).filterMap LoaderAccount.ownFailure?)
  | [], _ => .refl _
  | p :: rest, g => by
    have hattributes := perm_failures_scopeCalls t p.scope p.attributes g
    have hrest := perm_failures_planCalls t rest (p.run t g)
    rw [planAccounts, planCalls, List.flatMap_cons, List.filterMap_append, filterMap_cons_toList,
      LoaderAccount.failures, List.append_assoc, List.append_assoc]
    -- The loader's failure moves behind those of the calls that later plans make.
    refine hattributes.append ?_
    exact (hrest.append_left _).trans (List.perm_append_comm_assoc _ _ _)

end Generation

/-! ### The balance -/

/-- Without a failure there is a file for every attribute of a loader, and one for the loader. -/
theorem LoaderAccount.length_files {x : LoaderAccount} (hcomplete : x.Complete)
    (hfailures : x.failures = []) :
    x.files.length = (x.plan.attributes.map Attribute.count).sum + 1 := by
  obtain ⟨hattributes, hloader⟩ := List.append_eq_nil_iff.mp hfailures
  have hnone : x.failure = none := by
    rw [Option.toList_eq_nil_iff, ownFailure?, Option.map_eq_none_iff] at hloader
    exact hloader
  have htrees := Account.length_flatMap_files x.attributes
    (fun y => .top x.plan.scope y.subject.toDeclaration) hcomplete.2 hattributes
  rw [hcomplete.1] at htrees
  rw [files, hnone, List.length_append, htrees]
  rfl

theorem LoaderAccount.length_flatMap_files : ∀ xs : List LoaderAccount, (∀ x ∈ xs, x.Complete) →
    xs.flatMap failures = [] → (xs.flatMap files).length =
      ((xs.map plan).map fun p => (p.attributes.map Attribute.count).sum).sum + xs.length
  | [], _, _ => rfl
  | x :: rest, hcomplete, hfailures => by
    obtain ⟨hx, hrest⟩ := List.forall_mem_cons.mp hcomplete
    obtain ⟨hxfailures, hfailures⟩ := List.append_eq_nil_iff.mp hfailures
    rw [List.flatMap_cons, List.length_append, length_files hx hxfailures,
      length_flatMap_files rest hrest hfailures, List.map_cons, List.map_cons, List.sum_cons,
      List.length_cons]
    omega

theorem sum_count_values (m : AttributeMap) :
    (m.values.map Attribute.count).sum = Attribute.countAll m.entries :=
  Account.sum_count m.entries

/-- The attributes of a registry are those of its plans. -/
theorem sum_count_plans (t : Target) (r : Registry) :
    ((plans t r).map fun p => (p.attributes.map Attribute.count).sum).sum = r.count := by
  rw [Registry.count_eq_length, Registry.declared, List.length_append, List.length_flatMap,
    plans, List.map_cons, List.sum_cons, List.map_map, ← Attribute.countAll_eq_length]
  refine congrArg₂ (· + ·) (sum_count_values r.attributes) (congrArg List.sum ?_)
  refine List.map_congr_left fun v _ => ?_
  rw [← Attribute.countAll_eq_length]
  exact sum_count_values v.attributes

namespace Generation

/-- The report of a run is that of its accounts. -/
theorem accounts_generate (t : Target) (r : Registry) (disk : Disk) :
    (accounts t r disk).map (·.plan) = plans t r ∧ (∀ x ∈ accounts t r disk, x.Complete) ∧
      (generate t r disk).written.map WrittenFile.origin =
        (accounts t r disk).flatMap LoaderAccount.files ∧
      (generate t r disk).failures = (accounts t r disk).flatMap LoaderAccount.failures := by
  have hnames : ∀ p ∈ plans t r, ∀ regs, (p.loader regs).ns = p.name := by
    intro p hp regs
    obtain rfl | ⟨v, -, rfl⟩ := mem_plans hp
    · rfl
    · rfl
  obtain ⟨hplans, hcomplete, hreports⟩ := reports_runPlans t (plans t r) (.start disk) hnames
  refine ⟨hplans, hcomplete, ?_, ?_⟩
  · rw [generate_eq]
    exact hreports.written
  · rw [generate_eq]
    exact hreports.failures

/-- **What came of every attribute and every loader.** No path is on record twice. The accounts of
the run are those of all loaders and of all their attributes: the files on record are those that are
left by the accounts, and the failures are those of the accounts. The log has one record for each
call for an attribute; each call that met an obstacle and each loader that met one has a failure of
its own, whatever becomes of the attributes around, and there are no other failures. Without
failures the files are as many as the attributes, the vendors and the root together. -/
theorem accounting (t : Target) (r : Registry) (disk : Disk) :
    ((generate t r disk).written.map fun f => f.path.key).Nodup ∧
    ((accounts t r disk).map (·.plan) = plans t r ∧ (∀ x ∈ accounts t r disk, x.Complete) ∧
      (generate t r disk).written.map WrittenFile.origin =
        (accounts t r disk).flatMap LoaderAccount.files ∧
      (generate t r disk).failures = (accounts t r disk).flatMap LoaderAccount.failures) ∧
    (generate t r disk).reached = (calls t r disk).map (·.subject.name) ∧
    (generate t r disk).failures.Perm ((calls t r disk).filterMap (Call.failure? t) ++
      (accounts t r disk).filterMap LoaderAccount.ownFailure?) ∧
    ((generate t r disk).isClean = true →
      (generate t r disk).written.length = r.count + r.vendors.size + 1) := by
  obtain ⟨hplans, hcomplete, hwritten, hfailures⟩ := accounts_generate t r disk
  refine ⟨(advance_generate t r disk).nodup, ⟨hplans, hcomplete, hwritten, hfailures⟩,
    reached_generate t r disk, ?_, fun hclean => ?_⟩
  · rw [hfailures]
    exact perm_failures_planCalls t (plans t r) (.start disk)
  rw [isClean, hfailures, List.isEmpty_iff] at hclean
  have hlength := LoaderAccount.length_flatMap_files (accounts t r disk) hcomplete hclean
  have hloaders : (accounts t r disk).length = r.vendors.size + 1 := by
    rw [← List.length_map (·.plan), hplans, plans, List.length_cons, List.length_map,
      OrderedMap.values, List.length_map, OrderedMap.size]
  rw [hplans, sum_count_plans, hloaders] at hlength
  rw [← List.length_map WrittenFile.origin, hwritten, hlength, Nat.add_assoc]

/-- A disk with folders in the places of the modules of `Outer` and of `Inner` in it. -/
def twiceBlockedDisk : Disk :=
  ((Disk.empty.put ["attr_outer"] .folder).put ["attr_inner.rs", "attr_outer"] .folder).put
    ["attr_outer.rs"] .folder

/-- `Inner` has its failure on record although `Outer` fails later. -/
example : (generate default ⟨⟨[("Outer", outerAttribute)]⟩, ∅⟩ twiceBlockedDisk).failures =
    [⟨"Inner", .file ⟨.createFile, .ofText "attr_outer/attr_inner.rs", .isAFolder⟩⟩,
      ⟨"Outer", .file ⟨.createFile, .ofText "attr_outer.rs", .isAFolder⟩⟩] := by
  decide +kernel

end Generation

end RadiusDictionary
