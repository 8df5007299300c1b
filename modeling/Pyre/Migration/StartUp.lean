import Pyre.Migration.Backfill

/-!
What a start-up does to the search index: a directory whose schema is old is put aside
and the index is built anew, the index is opened in the directory of its version, and
it is filled if it is empty. Started again, this changes nothing only where an index
with the new field lies beside that directory.
-/

set_option autoImplicit false

namespace Pyre.Migration
open Base

structure FieldOptions where
  numeric : Bool
  tokenized : Bool
  indexed : Bool
  stored : Bool
  fast : Bool
  deriving DecidableEq, Repr

abbrev Schema := List (String × FieldOptions)

def stringStored : FieldOptions := ⟨false,false,true,true,false⟩

def blockSchema : Schema :=
  [("block_id",stringStored),("pane_id",stringStored),("session_id",stringStored),
    ("started_at",⟨true,false,true,true,true⟩),("command",⟨false,true,true,true,false⟩),
    ("stdout",⟨false,true,true,false,false⟩),("exit_code",⟨true,false,true,false,true⟩)]

/-- The index files of one directory. -/
inductive IndexFiles where
  | absent
  | unreadable
  | index (schema : Schema) (docs : List Document)
  deriving DecidableEq, Repr

/-- The index directory: the files in it, and those in the directory of the version. -/
structure IndexDir where
  root : IndexFiles
  v3 : IndexFiles
  deriving DecidableEq, Repr

def IndexDir.empty : IndexDir := ⟨.absent,.absent⟩

/-- The index directory, and the directories beside it that are backups, by their suffix. -/
structure StateDir where
  index : Option IndexDir
  backups : Table Text IndexDir
  deriving DecidableEq

/-- What a start-up meets: the time, as the suffix of a backup, and which additions fail. -/
structure Circumstances where
  suffix : Text
  added : BlockId → Bool

def usizeMax : Nat := 18446744073709551615

/-- The output with its lines joined, a character a byte. -/
def BlockStore.stdoutSnippet (st : BlockStore) (b : BlockId) (maxChars : Nat) : Text :=
  (((st.blob b).getD []).map fun byte =>
    if byte = 10 ∨ byte = 13 ∨ byte = 9 then ' ' else Char.ofNat byte.toNat).take maxChars

/-- `none` where the index cannot be opened. -/
def tantivyHasExitCodeField : IndexFiles → Option Bool
  | .index schema _ => some (schema.any fun field => field.1 = "exit_code")
  | _ => none

/-- An index of another schema is not opened. -/
def openOrCreate : IndexFiles → Option (List Document)
  | .absent => some []
  | .unreadable => none
  | .index schema docs => if schema = blockSchema then some docs else none

/-- The blocks for which an addition fails are passed over. -/
def BlockStore.backfill (st : BlockStore) (added : BlockId → Bool) (docs : List Document) :
    List Document :=
  if 0 < docs.length then docs
  else if st.rows.length = 0 then docs
  else docs ++ ((st.listBlocks u32Max).filter fun b => added b.id).map st.document

namespace StateDir

/-- `BlockIndex::open`, with what is then done to its documents. -/
def openIndex (d : StateDir) (change : List Document → List Document) : Option StateDir :=
  let dir := d.index.getD .empty
  (openOrCreate dir.v3).map fun docs =>
    { d with index := some { dir with v3 := .index blockSchema (change docs) } }

/-- A directory is not renamed to one that is there and not empty. -/
def backUp (d : StateDir) (dir : IndexDir) (suffix : Text) : Option StateDir :=
  if (d.backups.lookup suffix).getD .empty = .empty then
    some ⟨some .empty,d.backups.insert suffix dir⟩
  else none

def maybeMigrateTantivySchema (st : BlockStore) (c : Circumstances) (d : StateDir) :
    Option StateDir :=
  match d.index with
  | none => some d
  | some dir =>
    if tantivyHasExitCodeField dir.root = some true then some d
    else (d.backUp dir c.suffix).bind fun d => d.openIndex fun docs =>
      docs ++ ((st.listBlocks u32Max).filter fun b => c.added b.id).map fun b =>
        b.document (st.stdoutSnippet b.id usizeMax)

/-- `none` where the start-up ends with an error. -/
def startUp (st : BlockStore) (d : StateDir) (c : Circumstances) : Option StateDir :=
  (d.maybeMigrateTantivySchema st c).bind fun d => d.openIndex (st.backfill c.added)

/-- An index with the field lies in the index directory itself, and nothing is to be
added to the other. -/
def Settled (st : BlockStore) (d : StateDir) : Prop :=
  ∃ dir ∈ d.index, tantivyHasExitCodeField dir.root = some true ∧
    (st.rows = [] ∨ openOrCreate dir.v3 ≠ some [])

end StateDir

/-- Where no addition fails the index is filled as the run of the backfill leaves it. -/
theorem backfill_all (st : BlockStore) :
    st.backfill (fun _ => true) = st.backfillIndexIfEmpty := by
  funext docs
  simp [BlockStore.backfill,BlockStore.backfillIndexIfEmpty]

namespace StateDir

variable {st : BlockStore} {d t : StateDir} {dir : IndexDir} {docs : List Document}
  {c : Circumstances}

/-- After a start-up the index of the version is there. -/
theorem opened_of_startUp (h : d.startUp st c = some t) :
    ∃ dir docs, t.index = some dir ∧ dir.v3 = .index blockSchema docs := by
  obtain ⟨u,-,hu⟩ := Option.bind_eq_some_iff.mp h
  obtain ⟨docs,-,rfl⟩ := Option.map_eq_some_iff.mp hu
  exact ⟨_,_,rfl,rfl⟩

theorem openIndex_opened (hdir : d.index = some dir) (hv3 : dir.v3 = .index blockSchema docs)
    {change : List Document → List Document} (h : change docs = docs) :
    d.openIndex change = some d := by
  obtain ⟨index,backups⟩ := d
  obtain ⟨root,v3⟩ := dir
  simp only at hdir hv3
  subst hdir hv3
  simp [openIndex,openOrCreate,h]

theorem startUp_settled (hdir : d.index = some dir) (hv3 : dir.v3 = .index blockSchema docs)
    (h : d.Settled st) (c : Circumstances) : d.startUp st c = some d := by
  obtain ⟨dir',hdir',hroot,hfull⟩ := h
  obtain rfl := Option.some.inj (hdir.symm.trans hdir')
  have hmigrate : d.maybeMigrateTantivySchema st c = some d := by
    rw [maybeMigrateTantivySchema,hdir]
    simp only [hroot,if_true]
  rw [startUp,hmigrate,Option.bind_some]
  refine openIndex_opened hdir hv3 ?_
  unfold BlockStore.backfill
  split
  · rfl
  · rename_i hempty
    have hdocs : docs = [] := List.length_eq_zero_iff.mp (Nat.le_zero.mp (Nat.not_lt.mp hempty))
    rcases hfull with hrows | hfull
    · rw [if_pos (by rw [hrows]; rfl)]
    · exact absurd (by rw [hv3,hdocs]; rfl) hfull

theorem backups_openIndex {change : List Document → List Document}
    (h : d.openIndex change = some t) : t.backups = d.backups := by
  obtain ⟨docs,-,rfl⟩ := Option.map_eq_some_iff.mp h
  rfl

/-- Where the field is not found the directory is put aside, or the start-up fails. -/
theorem startUp_ne (hdir : d.index = some dir) (hv3 : dir.v3 = .index blockSchema docs)
    (hroot : tantivyHasExitCodeField dir.root ≠ some true) (c : Circumstances) :
    d.startUp st c ≠ some d := by
  intro h
  obtain ⟨u,hu,h⟩ := Option.bind_eq_some_iff.mp h
  rw [maybeMigrateTantivySchema,hdir] at hu
  simp only [hroot,if_false] at hu
  obtain ⟨b,hb,hu⟩ := Option.bind_eq_some_iff.mp hu
  rw [backUp,Option.ite_none_right_eq_some,Option.some.injEq] at hb
  obtain ⟨hfree,rfl⟩ := hb
  have hbackups : d.backups = d.backups.insert c.suffix dir :=
    (backups_openIndex h).trans (backups_openIndex hu)
  have hlookup : d.backups.lookup c.suffix = some dir := by
    rw [hbackups]
    exact AList.lookup_insert _
  rw [hlookup,Option.getD_some] at hfree
  rw [hfree] at hv3
  exact absurd hv3 (by simp [IndexDir.empty])

/-- An index without a document is filled. -/
theorem startUp_fills (hdir : d.index = some dir) (hv3 : dir.v3 = .index blockSchema [])
    (hroot : tantivyHasExitCodeField dir.root = some true) (hrows : st.rows ≠ [])
    (suffix : Text) : d.startUp st ⟨suffix,fun _ => true⟩ ≠ some d := by
  have hmigrate : d.maybeMigrateTantivySchema st ⟨suffix,fun _ => true⟩ = some d := by
    rw [maybeMigrateTantivySchema,hdir]
    simp only [hroot,if_true]
  have hnew : (st.listBlocks u32Max).map st.document ≠ [] := by
    intro hnil
    have hlen := st.length_listBlocks u32Max
    rw [List.map_eq_nil_iff.mp hnil,List.length_nil] at hlen
    have hpos := List.length_pos_iff.mpr hrows
    have hmax : 0 < u32Max := by decide
    omega
  rw [startUp,hmigrate,Option.bind_some]
  intro h
  change d.openIndex (st.backfill fun _ => true) = some d at h
  rw [backfill_all] at h
  simp only [openIndex,hdir,Option.getD_some,hv3,openOrCreate,if_true,Option.map_some,
    Option.some.injEq] at h
  have hindex := congrArg StateDir.index h
  rw [hdir,Option.some.injEq] at hindex
  have hdocs := congrArg IndexDir.v3 hindex
  rw [hv3,IndexFiles.index.injEq,BlockStore.backfillIndexIfEmpty,if_neg (by simp),
    if_neg (by simpa using hrows)] at hdocs
  exact hnew hdocs.2

/-- Started again, any number of times, after a start-up that has completed, the index
is left as it is just if an index with the field is in the index directory itself, and
the other has a document or there is none to add. -/
theorem startUp_again_iff (h : d.startUp st c = some t) :
    (∀ cs : List Circumstances, cs.foldlM (startUp st) t = some t) ↔ t.Settled st := by
  obtain ⟨dir,docs,hdir,hv3⟩ := opened_of_startUp h
  constructor
  · intro hsame
    have hone : ∀ c, t.startUp st c = some t := fun c => by simpa using hsame [c]
    have hroot : tantivyHasExitCodeField dir.root = some true := by
      by_contra hroot
      exact startUp_ne hdir hv3 hroot c (hone c)
    refine ⟨dir,hdir,hroot,?_⟩
    by_contra hneither
    obtain ⟨hrows,hfull⟩ := not_or.mp hneither
    rw [not_not,hv3,openOrCreate,if_pos rfl,Option.some.injEq] at hfull
    subst hfull
    exact startUp_fills hdir hv3 hroot hrows c.suffix (hone _)
  · intro hsettled cs
    induction cs with
    | nil => rfl
    | cons c cs ih => rw [List.foldlM_cons,startUp_settled hdir hv3 hsettled c]; exact ih

/-- An index that was made before each version had a directory of its own. -/
def unversioned : StateDir := ⟨some ⟨.index blockSchema [],.absent⟩,∅⟩

theorem startUp_again_unversioned : ∃ t,
    unversioned.startUp (numberedBlocks 1) ⟨[],fun _ => true⟩ = some t ∧
      ∀ cs : List Circumstances, cs.foldlM (startUp (numberedBlocks 1)) t = some t := by
  have hstart : unversioned.startUp (numberedBlocks 1) ⟨[],fun _ => true⟩ =
      some ⟨some ⟨.index blockSchema [],.index blockSchema
        [⟨⟨0⟩,⟨0⟩,⟨0⟩,0,[],[],noExitCode⟩]⟩,∅⟩ := rfl
  refine ⟨_,hstart,(startUp_again_iff hstart).mpr ⟨_,rfl,by decide,Or.inr ?_⟩⟩
  simp [openOrCreate]

/-- Where there was no index, the second start-up puts aside the one that the first has made. -/
theorem second_startUp_backs_up : ¬∀ (st : BlockStore) (d t : StateDir) (c c' : Circumstances),
    d.startUp st c = some t → t.startUp st c' = some t := by
  intro h
  have hagain := h (numberedBlocks 0) ⟨none,∅⟩ _ ⟨[],fun _ => true⟩ ⟨['1'],fun _ => true⟩ rfl
  exact startUp_ne rfl rfl (by decide) _ hagain

end StateDir

end Pyre.Migration
