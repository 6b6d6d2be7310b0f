import RCloneCloud.Ui.Dialogs
import RCloneCloud.Lib.Sort

/-!
# `Ui.FolderTable` — the rows of the folder table and their order

The table sorts a copy of the listed items and makes one row of each. Folders come first under every
configuration; the four fields have four keys, with `''` and `0` for what an item lacks, and strings are
compared by their code units. Without a configuration the lower-cased names are compared by the locale.

A comparator of the table is built from `Lib.Sort`'s parts, the rule for folders over the comparison of keys, so its
consistency is theirs (`compareSorted_consistent`, `compareDefault_consistent`). What the locale does to texts is a
parameter with what its comparison promises (`TableLocale`). The result is stated of the rows (`itemsResult_ordered`):
they are the listed items in another order, folders first, the keys in the order asked for, and tied items as they
were listed.
-/

set_option autoImplicit false

namespace RCloneCloud

open Lib

/-! ## Items and configurations -/

/-- A `ListFolderItem` with all that the table reads; the time is in milliseconds. -/
structure FolderItem extends ListFolderItem where
  size : Option ℚ
  mimeType : Option JsString
  modTime : Option ℤ
deriving DecidableEq

/-- The answer to a listing. -/
structure ListFolderResponse where
  items : List FolderItem

/-- The four columns that can be sorted by. -/
inductive SortField where
  | name
  | lastModified
  | size
  | mimeType
deriving DecidableEq

/-- Up or down. -/
inductive SortDirection where
  | asc
  | desc
deriving DecidableEq

/-- The column that is sorted by and its direction. -/
structure SortConfig where
  field : SortField
  direction : SortDirection
deriving DecidableEq

/-- A click on the head of a column. -/
def toggleSort (current : Option SortConfig) (field : SortField) : Option SortConfig :=
  match current with
  | some ⟨currentField, direction⟩ =>
      if currentField = field then some ⟨field, if direction = .asc then .desc else .asc⟩
      else some ⟨field, .asc⟩
  | none => some ⟨field, .asc⟩

/-- Clicks lead from no configuration to every one. -/
theorem toggleSort_reaches (config : SortConfig) : ∃ clicks : List SortField, clicks.foldl toggleSort none = some config := by
  obtain ⟨field, direction⟩ := config
  cases direction with
  | asc => exact ⟨[field], rfl⟩
  | desc => exact ⟨[field, field], by simp [toggleSort]⟩

/-- The UTF-16 code units of a character. -/
def charCodeUnits (c : Char) : List ℕ :=
  if c.toNat < 0x10000 then [c.toNat]
  else [0xd800 + (c.toNat - 0x10000) / 0x400, 0xdc00 + (c.toNat - 0x10000) % 0x400]

/-- What `<` compares of two strings. -/
def codeUnits (s : JsString) : List ℕ := s.flatMap charCodeUnits

/-- What the table asks of the browser and its locale. -/
structure TableLocale where
  toLowerCase : JsString → JsString
  localeCompare : JsString → JsString → ℤ
  prettyBytes : ℚ → JsString
  toDateString : ℤ → JsString
  /-- `localeCompare` is a total preorder. -/
  consistent : Consistent localeCompare

instance : Inhabited TableLocale where
  default :=
    { toLowerCase := List.map Char.toLower
      localeCompare := fun a b => compareKeys true (codeUnits a) (codeUnits b)
      prettyBytes := fun size => js (toString size)
      toDateString := fun time => js (toString time)
      consistent := Consistent.byKey true codeUnits }

/-! ## The rows -/

/-- What a click on a row does: it goes to the folder, or opens the file viewer. -/
inductive TableClick where
  | navigate (commands : List JsString)
  | openDialog (request : DialogRequest)

/-- An `Item` of the table. -/
structure TableRow extends FolderItem where
  prettySize : Option JsString
  prettyLastModified : Option JsString
  onClick : TableClick

section
variable (locale : TableLocale)

/-- Folders first, then the key of the column in its direction. -/
def compareSorted (sort : SortConfig) : FolderItem → FolderItem → ℤ :=
  let ascending := sort.direction == .asc
  compareFirst (fun item => item.isDir) fun a b =>
    match sort.field with
    | .name =>
        compareKeys ascending (codeUnits (locale.toLowerCase a.name)) (codeUnits (locale.toLowerCase b.name))
    | .size => compareKeys ascending (a.size.getD 0) (b.size.getD 0)
    | .lastModified => compareKeys ascending (a.modTime.getD 0) (b.modTime.getD 0)
    | .mimeType =>
        compareKeys ascending (codeUnits (locale.toLowerCase (a.mimeType.getD [])))
          (codeUnits (locale.toLowerCase (b.mimeType.getD [])))

/-- Folders first, then the lower-cased names in the order of the locale. -/
def compareDefault : FolderItem → FolderItem → ℤ :=
  compareFirst (fun item => item.isDir) fun a b =>
    locale.localeCompare (locale.toLowerCase a.name) (locale.toLowerCase b.name)

/-- The sorted copy of the listed items. -/
def sortItems (sort : Option SortConfig) (items : List FolderItem) : List FolderItem :=
  match sort with
  | some sort => stableSort (compareSorted locale sort) items
  | none => stableSort (compareDefault locale) items

/-- The row of an item, with its size and its date made readable where it has them. -/
def tableRow (remotePath : RemotePath) (item : FolderItem) : TableRow :=
  { item with
    -- a size of 0 is falsy
    prettySize := match item.size with
      | some size => if size = 0 then none else some (locale.prettyBytes size)
      | none => none
    prettyLastModified := item.modTime.map locale.toDateString
    onClick :=
      if item.isDir then .navigate [js "/folders", folderListTableLink remotePath.remote item.path]
      else .openDialog (.fileViewer remotePath.remote remotePath.path item.name (item.mimeType.getD [])) }

/-- The rows of a result: a list that is still awaited or has failed is handed on as it is. -/
def itemsResult (contentsResult : Result ListFolderResponse) (sort : Option SortConfig)
    (remotePath : Option RemotePath) : Except String (Result (List TableRow)) :=
  match remotePath with
  | none => .ok toPending
  | some remotePath =>
    if !hasSucceed contentsResult then
      -- the same object, whose data is not read any more
      .ok ⟨none, contentsResult.isLoading, contentsResult.error⟩
    else match contentsResult.data with
      | none => .error "TypeError"
      | some data => .ok (toSuccess ((sortItems locale sort data.items).map (tableRow locale remotePath)))

/-! ## What the order should be -/

/-- One key stands before another, or beside it, in a direction. -/
def SortDirection.le {κ : Type} [LE κ] (direction : SortDirection) (x y : κ) : Prop :=
  match direction with
  | .asc => x ≤ y
  | .desc => y ≤ x

instance {κ : Type} [LE κ] [DecidableLE κ] (x y : κ) : (d : SortDirection) → Decidable (d.le x y)
  | .asc => inferInstanceAs (Decidable (x ≤ y))
  | .desc => inferInstanceAs (Decidable (y ≤ x))

/-- **The order among items of one kind**: by the key of the field, in the direction. -/
def keysInOrder (sort : Option SortConfig) (a b : FolderItem) : Prop :=
  match sort with
  | none => locale.localeCompare (locale.toLowerCase a.name) (locale.toLowerCase b.name) ≤ 0
  | some ⟨.name, direction⟩ =>
      direction.le (codeUnits (locale.toLowerCase a.name)) (codeUnits (locale.toLowerCase b.name))
  | some ⟨.size, direction⟩ => direction.le (a.size.getD 0) (b.size.getD 0)
  | some ⟨.lastModified, direction⟩ => direction.le (a.modTime.getD 0) (b.modTime.getD 0)
  | some ⟨.mimeType, direction⟩ =>
      direction.le (codeUnits (locale.toLowerCase (a.mimeType.getD [])))
        (codeUnits (locale.toLowerCase (b.mimeType.getD [])))

instance (a b : FolderItem) : (sort : Option SortConfig) → Decidable (keysInOrder locale sort a b)
  | none => inferInstanceAs (Decidable (_ ≤ _))
  | some ⟨.name, direction⟩ => inferInstanceAs (Decidable (direction.le _ _))
  | some ⟨.size, direction⟩ => inferInstanceAs (Decidable (direction.le _ _))
  | some ⟨.lastModified, direction⟩ => inferInstanceAs (Decidable (direction.le _ _))
  | some ⟨.mimeType, direction⟩ => inferInstanceAs (Decidable (direction.le _ _))

/-- Two items that compare equal: of one kind, with keys that neither of which stands before the other. -/
def tied (sort : Option SortConfig) (a b : FolderItem) : Bool :=
  a.isDir == b.isDir && (decide (keysInOrder locale sort a b) && decide (keysInOrder locale sort b a))

/-! ## The comparators -/

variable {locale}

/-- A comparison of keys says what the direction's order says. -/
theorem compareKeys_le_zero {κ : Type} [LinearOrder κ] (direction : SortDirection) (x y : κ) :
    compareKeys (direction == .asc) x y ≤ 0 ↔ direction.le x y := by
  cases direction with
  | asc => exact compareKeys_ascending x y
  | desc => exact compareKeys_descending x y

/-- Sorting by a column is consistent, whatever the column. -/
theorem compareSorted_consistent (sort : SortConfig) : Consistent (compareSorted locale sort) := by
  refine Consistent.ofKind ?_
  obtain ⟨field, direction⟩ := sort
  cases field with
  | name => exact Consistent.byKey _ fun item : FolderItem => codeUnits (locale.toLowerCase item.name)
  | lastModified => exact Consistent.byKey _ fun item : FolderItem => item.modTime.getD 0
  | size => exact Consistent.byKey _ fun item : FolderItem => item.size.getD 0
  | mimeType =>
      exact Consistent.byKey _ fun item : FolderItem => codeUnits (locale.toLowerCase (item.mimeType.getD []))

/-- The order without a configuration is consistent too, by the promise of the locale. -/
theorem compareDefault_consistent : Consistent (compareDefault locale) := by
  refine Consistent.ofKind ⟨fun a b => ?_, fun a b c => ?_⟩
  · exact locale.consistent.flip _ _
  · exact locale.consistent.trans _ _ _

/-- What the comparator means: folders before files, and keys in order within each kind. -/
theorem compareSorted_le_zero (sort : SortConfig) (a b : FolderItem) :
    compareSorted locale sort a b ≤ 0 ↔
      (b.isDir = true → a.isDir = true) ∧ (a.isDir = b.isDir → keysInOrder locale (some sort) a b) := by
  rw [compareSorted, compareFirst_le_zero]
  refine and_congr_right fun _ => imp_congr_right fun _ => ?_
  obtain ⟨field, direction⟩ := sort
  cases field with
  | name => exact compareKeys_le_zero direction _ _
  | lastModified => exact compareKeys_le_zero direction _ _
  | size => exact compareKeys_le_zero direction _ _
  | mimeType => exact compareKeys_le_zero direction _ _

/-- The comparator in use, whichever of the two it is, says what the order should be. -/
theorem sortItems_eq (sort : Option SortConfig) :
    ∃ cmp : FolderItem → FolderItem → ℤ, Consistent cmp ∧
      (∀ items, sortItems locale sort items = stableSort cmp items) ∧
      ∀ a b, cmp a b ≤ 0 ↔
        (b.isDir = true → a.isDir = true) ∧ (a.isDir = b.isDir → keysInOrder locale sort a b) := by
  cases sort with
  | none => exact ⟨_, compareDefault_consistent, fun _ => rfl, fun _ _ => compareFirst_le_zero⟩
  | some sort => exact ⟨_, compareSorted_consistent sort, fun _ => rfl, compareSorted_le_zero sort⟩

/-- Items are tied when they are of one kind and neither key comes before the other. -/
theorem tied_iff {sort : Option SortConfig} {a b : FolderItem} :
    tied locale sort a b = true ↔ a.isDir = b.isDir ∧ keysInOrder locale sort a b ∧ keysInOrder locale sort b a := by
  simp only [tied, Bool.and_eq_true, beq_iff_eq, decide_eq_true_iff]

/-! ## The order of the rows -/

/-- **The order of the table.** -/
theorem itemsResult_ordered (locale : TableLocale) (sort : Option SortConfig) (remotePath : RemotePath)
    (items : List FolderItem) :
    ∃ sorted : List FolderItem,
      itemsResult locale (toSuccess ⟨items⟩) sort (some remotePath) =
        .ok (toSuccess (sorted.map (tableRow locale remotePath))) ∧
      sorted.Perm items ∧
      sorted.Pairwise (fun a b => b.isDir = true → a.isDir = true) ∧
      sorted.Pairwise (fun a b => a.isDir = b.isDir → keysInOrder locale sort a b) ∧
      ∀ item, sorted.filter (tied locale sort item) = items.filter (tied locale sort item) := by
  obtain ⟨cmp, hcmp, hsort, hle⟩ := @sortItems_eq locale sort
  have hpairwise := hcmp.pairwise_stableSort items
  refine ⟨sortItems locale sort items, rfl, ?_, ?_, ?_, fun item => ?_⟩
  · rw [hsort]
    exact stableSort_perm cmp items
  · rw [hsort]
    exact hpairwise.imp fun {a b} hab => ((hle a b).mp hab).1
  · rw [hsort]
    exact hpairwise.imp fun {a b} hab => ((hle a b).mp hab).2
  · -- two items tied with a third compare equal by way of it
    rw [hsort]
    refine hcmp.filter_stableSort items fun a b ha hb => ?_
    rw [tied_iff] at ha hb
    have hax : cmp a item ≤ 0 := (hle a item).mpr ⟨fun h => ha.1 ▸ h, fun _ => ha.2.2⟩
    have hxb : cmp item b ≤ 0 := (hle item b).mpr ⟨fun h => hb.1.trans h, fun _ => hb.2.1⟩
    exact hcmp.trans a item b hax hxb

end

end RCloneCloud
