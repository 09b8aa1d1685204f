import Bindery.Archive.Extract
import Bindery.Proofs.Storage.Confined

/-!
# Extraction is confined

The members of a tape are extracted one after the other. A member whose name leads out of the folder
is refused when its turn comes and writes nothing; any other member makes folders and files inside
the folder only. So a tape is refused at the first member that leads out of the folder, if the
system does not refuse something before. After a refusal the folder is removed.

## What is proved

* `confined_extractTape` — a tape changes nothing but what is inside the folder.
* `outcome_extractTape` — at which member a tape is refused.
* `extraction_confined` — what extraction of a packed tape comes to.
-/

namespace Bindery.Archive

open Bindery.Storage Bindery.Storage.Disk Bindery.Storage.Action

variable {root archive : Path} {d : Disk} {m : Member} {members : List Member}

/-- Does the name of the member lead out of the folder? -/
def leadsOut (root : Path) (m : Member) : Bool :=
  !(root.resolve m.name).isWithin root

/-! ### One member -/

/-- What is done for a member that stays inside the folder. -/
def putMember (p : Path) : MemberKind → Action Unit
  | .folder => ensureFolder p
  | .file data => do
    ensureFolder p.parent
    writeFile p (.plain data)
  | .other => return

theorem extractOnTape_of_leadsOut (h : leadsOut root m = true) :
    extractOnTape root m = throw (.unsafePath m.name) := by
  have htarget : target root m.name = .error (.unsafePath m.name) := by
    rw [leadsOut, Bool.not_eq_true'] at h
    simp [target, h]
  rw [extractOnTape, htarget]
  rfl

theorem extractOnTape_of_stays (h : leadsOut root m = false) :
    extractOnTape root m = putMember (root.resolve m.name) m.kind := by
  have htarget : target root m.name = .ok (root.resolve m.name) := by
    rw [leadsOut, Bool.not_eq_false'] at h
    simp [target, h]
  rw [extractOnTape, htarget]
  cases m.kind <;> rfl

theorem failsBySystem_putMember (p : Path) (kind : MemberKind) :
    FailsBySystem (putMember p kind) := by
  cases kind with
  | folder => exact failsBySystem_ensureFolder p
  | file data =>
    exact (failsBySystem_ensureFolder p.parent).bind fun _ => failsBySystem_writeFile p _
  | other => exact nofun

theorem confined_putMember {p : Path} (hroot : root ≠ []) (h : p.IsInside root)
    (kind : MemberKind) : Confined root (putMember p kind) := by
  cases kind with
  | folder => exact confined_ensureFolder (.inl h)
  | file data =>
    exact (confined_ensureFolder (Path.parent_isInside_or_mem_above h hroot)).bind
      fun _ => confined_writeFile _ h
  | other => exact .pure root ()

/-- A member is extracted inside the folder, or not at all. -/
theorem confined_extractOnTape (hroot : root ≠ []) (m : Member) :
    Confined root (extractOnTape root m) := by
  cases hm : leadsOut root m
  · rw [extractOnTape_of_stays hm]
    exact confined_putMember hroot (Path.isInside_resolve (by simpa [leadsOut] using hm)) m.kind
  · rw [extractOnTape_of_leadsOut hm]
    exact .throw root _

/-! ### Tapes -/

theorem extractTape_cons (root : Path) (m : Member) (members : List Member) :
    extractTape root (m :: members) =
      extractOnTape root m >>= fun _ => extractTape root members :=
  rfl

/-- A tape changes nothing but what is inside the folder. -/
theorem confined_extractTape (hroot : root ≠ []) (members : List Member) :
    Confined root (extractTape root members) :=
  .forM fun m _ => confined_extractOnTape hroot m

/-- A tape is refused by the system, or at the first member that leads out of the folder; it is
extracted if there is neither. -/
theorem outcome_extractTape (root : Path) (members : List Member) (d : Disk) :
    (∃ cause path, outcome (extractTape root members) d = .error (.system cause path)) ∨
      outcome (extractTape root members) d =
        match members.find? (leadsOut root) with
        | some m => .error (.unsafePath m.name)
        | none => .ok () := by
  induction members generalizing d with
  | nil => exact .inr rfl
  | cons m members ih =>
    rw [extractTape_cons, outcome_bind]
    cases hm : leadsOut root m
    case true =>
      rw [extractOnTape_of_leadsOut hm, List.find?_cons_of_pos hm]
      exact .inr rfl
    case false =>
      rw [extractOnTape_of_stays hm, List.find?_cons_of_neg (by simp [hm])]
      cases hput : outcome (putMember (root.resolve m.name) m.kind) d with
      | error e =>
        obtain ⟨cause, path, rfl⟩ := failsBySystem_putMember _ _ d e hput
        exact .inl ⟨cause, path, rfl⟩
      | ok u => exact ih _

/-- Where the system refuses nothing, a tape is refused exactly if a member leads out of the folder,
and for the first such member. -/
theorem refused_iff_leadsOut
    (hsystem : ∀ cause path, outcome (extractTape root members) d ≠ .error (.system cause path)) :
    ((∃ e, outcome (extractTape root members) d = .error e ∧ e.kind = .value) ↔
        ∃ m ∈ members, (root.resolve m.name).isWithin root = false) ∧
      ∀ e, outcome (extractTape root members) d = .error e →
        ∃ m, members.find? (leadsOut root) = some m ∧ e = .unsafePath m.name := by
  have hfind := (outcome_extractTape root members d).resolve_left
    fun ⟨cause, path, h⟩ => hsystem cause path h
  rw [hfind]
  cases hm : members.find? (leadsOut root) with
  | none =>
    refine ⟨⟨nofun, fun ⟨m, hmem, hout⟩ => ?_⟩, nofun⟩
    exact absurd (by simp [leadsOut, hout]) (List.find?_eq_none.mp hm m hmem)
  | some m =>
    have hleads : (root.resolve m.name).isWithin root = false := by
      simpa [leadsOut] using List.find?_some hm
    refine ⟨⟨fun _ => ⟨m, List.mem_of_find?_eq_some hm, hleads⟩, fun _ => ⟨_, rfl, rfl⟩⟩, ?_⟩
    rintro e ⟨rfl⟩
    exact ⟨m, rfl, rfl⟩

/-! ### Archives -/

/-- The end of a name that ends like that of a packed tape is not that of packed files. -/
theorem suffixOf_ne_zip {name : String} (h : name.endsWith ".tgz" = true) :
    suffixOf name ≠ ".zip" := by
  have hsuffix : ['.', 't', 'g', 'z'] <:+ name.toList := by
    simpa using String.Slice.endsWith_string_iff.mp h
  obtain ⟨start, hname⟩ := hsuffix
  have htaken : name.toList.reverse.takeWhile (· != '.') = ['z', 'g', 't'] := by
    rw [← hname, List.reverse_append]
    rfl
  rw [suffixOf, htaken]
  split
  · decide
  · decide

/-- Reads an archive and extracts it into a folder that stands. -/
def extracting (archive root : Path) : Action Unit :=
  readFile archive >>= extractInto root archive.name

/-- A packed tape is unpacked as its members are extracted. -/
theorem run_extracting {c : Content} (hname : archive.name.endsWith ".tgz" = true)
    (hfile : d.node? archive = some (.file c)) (hmembers : tapeMembers c = .ok members) :
    (extracting archive root).run.run d = (extractTape root members).run.run d := by
  have hinto : extractInto root archive.name c = extractTape root members := by
    rw [extractInto, if_neg (by simpa using suffixOf_ne_zip hname),
      if_pos (by simp [namesTape, hname]), hmembers]
    rfl
  rw [extracting, ExceptT.run_bind, StateT.run_bind, run_readFile, hfile]
  exact congrArg (fun x : Action Unit => x.run.run d) hinto

/-- Extraction of an archive as a whole: what was extracted before a refusal is removed. -/
theorem run_extract (archive root : Path) (d : Disk) :
    (extract archive root).run.run d =
      match outcome (extracting archive root) (d.put root .folder) with
      | .ok u => (.ok u, after (extracting archive root) (d.put root .folder))
      | .error e =>
        (.error e, (after (extracting archive root) (d.put root .folder)).removeTree root) := by
  refine (run_tryCatch (extracting archive root)
    (fun e => do modify fun d => d.removeTree root; throw e) (d.put root .folder)).trans ?_
  cases outcome (extracting archive root) (d.put root .folder) <;> rfl

theorem outcome_extract (archive root : Path) (d : Disk) :
    outcome (extract archive root) d = outcome (extracting archive root) (d.put root .folder) := by
  rw [outcome, run_extract]
  cases outcome (extracting archive root) (d.put root .folder) <;> rfl

theorem after_extract_of_ok (h : outcome (extract archive root) d = .ok ()) :
    after (extract archive root) d = after (extracting archive root) (d.put root .folder) := by
  rw [outcome_extract] at h
  rw [after, run_extract, h]

/-- After a refusal the folder is removed. -/
theorem after_extract_of_error {e : Refusal} (h : outcome (extract archive root) d = .error e) :
    after (extract archive root) d =
      (after (extracting archive root) (d.put root .folder)).removeTree root := by
  rw [outcome_extract] at h
  rw [after, run_extract, h]

/-- What extraction of a packed tape into a new folder comes to. All that is made while the members
are extracted, and all that is there in the end, is inside the folder. Where the system refuses
nothing, extraction refuses a value exactly if the name of some member, be it a link, leads out of
the folder, and it names the first such member. After a refusal all is as it was before, and the
folder is gone. -/
theorem extraction_confined {c : Content} (hname : archive.name.endsWith ".tgz" = true)
    (hnew : d.Vacant root) (hfile : d.node? archive = some (.file c))
    (hmembers : tapeMembers c = .ok members) :
    SameOutside root d (after (extractTape root members) (d.put root .folder)) ∧
      SameOutside root d (after (extract archive root) d) ∧
      ((∀ cause path, outcome (extract archive root) d ≠ .error (.system cause path)) →
        ((∃ e, outcome (extract archive root) d = .error e ∧ e.kind = .value) ↔
          ∃ m ∈ members, (root.resolve m.name).isWithin root = false) ∧
        ∀ e, outcome (extract archive root) d = .error e →
          ∃ m, members.find? (leadsOut root) = some m ∧ e = .unsafePath m.name) ∧
      ∀ e, outcome (extract archive root) d = .error e →
        (∀ p, (after (extract archive root) d).node? p = d.node? p) ∧
        (after (extract archive root) d).node? root = none := by
  have hne : archive ≠ root := by
    rintro rfl
    rw [hnew.free archive (Path.isInside_self archive).isWithin] at hfile
    cases hfile
  have hfile' : (d.put root .folder).node? archive = some (.file c) := by
    rw [node?_put_of_ne hne, hfile]
  have hput : SameOutside root d (d.put root .folder) := .put (Path.isInside_self root)
  have htape : SameOutside root d (after (extractTape root members) (d.put root .folder)) :=
    hput.trans (confined_extractTape hnew.ne_nil members _ (hput.reaches hnew.reaches))
  have hrun : (extracting archive root).run.run (d.put root .folder) =
      (extractTape root members).run.run (d.put root .folder) :=
    run_extracting hname hfile' hmembers
  have hafter : after (extracting archive root) (d.put root .folder) =
      after (extractTape root members) (d.put root .folder) := congrArg Prod.snd hrun
  have houtcome : outcome (extract archive root) d =
      outcome (extractTape root members) (d.put root .folder) :=
    (outcome_extract archive root d).trans (congrArg Prod.fst hrun)
  have hrestored : ∀ e, outcome (extract archive root) d = .error e →
      ∀ p, (after (extract archive root) d).node? p = d.node? p := by
    intro e he p
    rw [after_extract_of_error he, hafter]
    exact htape.removeTree hnew p
  refine ⟨htape, ?_, fun hsystem => ?_, fun e he => ⟨hrestored e he, ?_⟩⟩
  · cases hout : outcome (extract archive root) d with
    | ok u => rwa [after_extract_of_ok hout, hafter]
    | error e => exact fun p _ => hrestored e hout p
  · rw [houtcome] at hsystem ⊢
    exact refused_iff_leadsOut hsystem
  · rw [hrestored e he]
    exact hnew.free root (Path.isInside_self root).isWithin

/-- A file, and a link of which the name leads out of the folder. -/
def linkOut : List Member :=
  [⟨"schema/types.graphql", .file (.text "type Query { id: ID }")⟩, ⟨"schema/../../link", .other⟩]

/-- A disk with the two on a tape. -/
def linkOutDisk : Disk :=
  (Disk.empty.putFolders ["tmp"]).putFile ["tmp", "schema.tgz"] (.tape linkOut)

theorem linkOut_confined :
    linkOutDisk.Vacant ["tmp", "new"] ∧
      outcome (extract ["tmp", "schema.tgz"] ["tmp", "new"]) linkOutDisk =
        .error (.unsafePath "schema/../../link") ∧
      ∀ p, (after (extract ["tmp", "schema.tgz"] ["tmp", "new"]) linkOutDisk).node? p =
        linkOutDisk.node? p := by
  have hname : (Path.name ["tmp", "schema.tgz"]).endsWith ".tgz" = true := by decide +kernel
  have hnew : linkOutDisk.Vacant ["tmp", "new"] := by
    refine ⟨by unfold Reaches; decide, fun p hp => ?_⟩
    obtain ⟨r, rfl⟩ := Path.isWithin_iff.mp hp
    rfl
  have hfile : Path.resolve ["tmp", "new"] "schema/types.graphql" =
      ["tmp", "new", "schema", "types.graphql"] := by
    rw [Path.resolve, namesOf_eq]
    decide +kernel
  have hlink : Path.resolve ["tmp", "new"] "schema/../../link" = ["tmp", "link"] := by
    rw [Path.resolve, namesOf_eq]
    decide +kernel
  have houtcome : outcome (extract ["tmp", "schema.tgz"] ["tmp", "new"]) linkOutDisk =
      .error (.unsafePath "schema/../../link") := by
    rw [outcome_extract, outcome, run_extracting (c := .tape linkOut) hname rfl rfl, linkOut,
      extractTape_cons, extractTape_cons, extractOnTape_of_stays (by rw [leadsOut, hfile]; rfl),
      extractOnTape_of_leadsOut (by rw [leadsOut, hlink]; rfl), hfile]
    decide +kernel
  obtain ⟨-, -, -, hgone⟩ := extraction_confined hname hnew (c := .tape linkOut) rfl rfl
  exact ⟨hnew, houtcome, (hgone _ houtcome).1⟩

end Bindery.Archive
