import Catalogue.Proofs.Chains
import Catalogue.Proofs.Classification
import Mathlib.Data.List.NodupEquivFin

/-!
# Products are read by the names of the columns

A listing gives one product for each row that the server sent, or none at all. A row gives a product
if there is an integer under `id` and a text under `name` and under `additional_info`
(`Sql.readProduct_eq_ok_iff`).

Where the columns stand does not matter: what is read under a name depends on the cells of that
column only, and these are the same when the columns change their places or others come in between
(`Sql.Table.Rearranged.readings_eq`). It does matter of which column the cells are where two have
the same name, for then the later one is read (`Sql.namesakes_and_cancellations`).
-/

namespace Catalogue

namespace Sql

/-! ### One row -/

/-- The cell of a row under a name. Of several columns with that name the last one counts. -/
def CellUnder (columns : List String) (row : List Cell) (name : String) (cell : Cell) : Prop :=
  ∃ i : Nat, columns[i]? = some name ∧ (∀ j > i, columns[j]? ≠ some name) ∧ row[i]? = some cell

/-- The row of a product: an integer and two texts under the names of its fields. -/
structure RowOf (columns : List String) (row : List Cell) (product : Product) : Prop where
  id : CellUnder columns row "id" (.integer product.id)
  name : CellUnder columns row "name" (.text product.name)
  info : CellUnder columns row "additional_info" (.text product.info)

variable {columns : List String} {row : List Cell} {name : String} {product : Product} {i : Nat}

theorem placeOf?_concat (columns : List String) (last name : String) :
    placeOf? (columns ++ [last]) name =
      if last = name then some columns.length else placeOf? columns name := by
  unfold placeOf?
  rw [List.reverse_concat, List.idxOf?_cons, List.length_append, List.length_singleton]
  by_cases h : last = name
  · simp [h]
  · simp only [beq_iff_eq, h, if_false, Option.map_map]
    congr 1
    funext i
    show columns.length + 1 - 1 - (i + 1) = columns.length - 1 - i
    omega

/-- A name stands for the last of the places where it is. -/
theorem placeOf?_eq_some_iff :
    placeOf? columns name = some i ↔
      columns[i]? = some name ∧ ∀ j > i, columns[j]? ≠ some name := by
  induction columns using List.reverseRecOn with
  | nil => exact ⟨nofun, fun h => nomatch h.1⟩
  | append_singleton columns last ih =>
    have hlast : (columns ++ [last])[columns.length]? = some last := List.getElem?_concat_length
    have hfront : ∀ j < columns.length, (columns ++ [last])[j]? = columns[j]? :=
      fun j hj => List.getElem?_append_left hj
    have hnone : ∀ j > columns.length, (columns ++ [last])[j]? = none := fun j hj =>
      List.getElem?_eq_none (by rw [List.length_append, List.length_singleton]; omega)
    rw [placeOf?_concat]
    split_ifs with hname
    · rw [Option.some.injEq]
      constructor
      · rintro rfl
        refine ⟨by rw [hlast, hname], fun j hj => ?_⟩
        rw [hnone j hj]
        nofun
      · rintro ⟨hi, hlater⟩
        rcases Nat.lt_trichotomy i columns.length with hlt | heq | hgt
        · exact absurd (hlast.trans (congrArg some hname)) (hlater _ hlt)
        · exact heq.symm
        · rw [hnone i hgt] at hi
          cases hi
    · rw [ih]
      have hsame : ∀ j : Nat, (columns ++ [last])[j]? = some name ↔ columns[j]? = some name := by
        intro j
        rcases Nat.lt_trichotomy j columns.length with hlt | rfl | hgt
        · rw [hfront j hlt]
        · rw [hlast, List.getElem?_eq_none (Nat.le_refl _)]
          exact iff_of_false (fun h => hname (Option.some.inj h)) nofun
        · rw [hnone j hgt, List.getElem?_eq_none (Nat.le_of_lt hgt)]
      simp only [ne_eq, hsame]

theorem placeOf?_eq_none_iff : placeOf? columns name = none ↔ name ∉ columns := by
  unfold placeOf?
  rw [Option.map_eq_none_iff, List.idxOf?_eq_none_iff, List.mem_reverse]

theorem readAt_eq_ok_iff {α : Type} {convert : Cell → Except CellFlaw α} {column : ColumnRef}
    {value : α} :
    Cell.readAt convert column i row = .ok value ↔
      ∃ cell, row[i]? = some cell ∧ convert cell = .ok value := by
  unfold Cell.readAt
  cases row[i]? with
  | none => simp
  | some cell => cases hconvert : convert cell <;> simp [hconvert]

theorem readNamed_eq_ok_iff {α : Type} {convert : Cell → Except CellFlaw α} {value : α} :
    readNamed convert columns row name = .ok value ↔
      ∃ cell, CellUnder columns row name cell ∧ convert cell = .ok value := by
  unfold readNamed
  cases hplace : placeOf? columns name with
  | none =>
    refine iff_of_false nofun ?_
    rintro ⟨cell, ⟨i, hi, -⟩, -⟩
    exact placeOf?_eq_none_iff.1 hplace (List.mem_of_getElem? hi)
  | some i =>
    obtain ⟨hi, hlater⟩ := placeOf?_eq_some_iff.1 hplace
    rw [readAt_eq_ok_iff]
    constructor
    · rintro ⟨cell, hcell, hvalue⟩
      exact ⟨cell, ⟨i, hi, hlater, hcell⟩, hvalue⟩
    · rintro ⟨cell, ⟨j, hj, hjlater, hcell⟩, hvalue⟩
      cases hplace.symm.trans (placeOf?_eq_some_iff.2 ⟨hj, hjlater⟩)
      exact ⟨cell, hcell, hvalue⟩

theorem toInteger_eq_ok_iff {cell : Cell} {value : Int64} :
    cell.toInteger = .ok value ↔ cell = .integer value := by
  cases cell <;> simp [Cell.toInteger]

theorem toText_eq_ok_iff {cell : Cell} {value : String} :
    cell.toText = .ok value ↔ cell = .text value := by
  cases cell <;> simp [Cell.toText]

/-- **A row gives a product** if it is the row of one. -/
theorem readProduct_eq_ok_iff :
    readProduct columns row = .ok product ↔ RowOf columns row product := by
  have hid : ∀ {name id}, readNamed Cell.toInteger columns row name = .ok id ↔
      CellUnder columns row name (.integer id) := by
    simp [readNamed_eq_ok_iff, toInteger_eq_ok_iff]
  have htext : ∀ {name text}, readNamed Cell.toText columns row name = .ok text ↔
      CellUnder columns row name (.text text) := by
    simp [readNamed_eq_ok_iff, toText_eq_ok_iff]
  unfold readProduct
  constructor
  · intro h
    obtain ⟨id, hid', h⟩ := bind_eq_ok_iff.1 h
    obtain ⟨name, hname', h⟩ := bind_eq_ok_iff.1 h
    obtain ⟨info, hinfo', h⟩ := bind_eq_ok_iff.1 h
    cases h
    exact ⟨hid.1 hid', htext.1 hname', htext.1 hinfo'⟩
  · rintro ⟨hid', hname', hinfo'⟩
    rw [hid.2 hid', htext.2 hname', htext.2 hinfo']
    rfl

/-! ### All rows -/

/-- What the rows of a table are read as. -/
def Table.readings (table : Table) : List (Except DriverError Product) :=
  table.rows.map (readProduct table.columns)

theorem Table.product_eq (table : Table) :
    table.product = table.readings.head?.getD (.error .rowNotFound) := by
  unfold Table.product Table.readings
  cases table.rows <;> rfl

theorem Table.products_eq (table : Table) : table.products = table.readings.mapM id := by
  unfold Table.products Table.readings
  rw [List.mapM_map, Function.id_comp]

/-- All rows are read if each of them is the row of a product. -/
theorem Table.products_eq_ok_iff {table : Table} {products : List Product} :
    table.products = .ok products ↔ List.Forall₂ (RowOf table.columns) table.rows products := by
  unfold Table.products
  rw [mapM_eq_ok_iff]
  simp only [readProduct_eq_ok_iff]

/-- There are products for all rows if each row is that of a product. -/
theorem exists_products_iff {rows : List (List Cell)} :
    (∃ products, List.Forall₂ (RowOf columns) rows products) ↔
      ∀ row ∈ rows, ∃ product, RowOf columns row product := by
  induction rows with
  | nil => exact iff_of_true ⟨[], .nil⟩ nofun
  | cons row rows ih =>
    rw [List.forall_mem_cons, ← ih]
    constructor
    · rintro ⟨_, hrow | ⟨hrow, hrows⟩⟩
      exact ⟨⟨_, hrow⟩, _, hrows⟩
    · rintro ⟨⟨product, hrow⟩, products, hrows⟩
      exact ⟨product :: products, .cons hrow hrows⟩

/-! ### Columns in other places -/

/-- The columns from which products are read. -/
def productColumns : List String := ["id", "name", "additional_info"]

/-- The columns of a table, each with the cells that it has in the rows. -/
def Table.bands (table : Table) : List (String × List (Option Cell)) :=
  table.columns.zipIdx.map fun (name, i) => (name, table.rows.map fun row => row[i]?)

/-- A table whose columns stand in other places, perhaps with further columns in between that have
other names than those from which products are read. -/
structure Table.Rearranged (table other : Table) : Prop where
  bands : ∃ further, (∀ band ∈ further, band.1 ∉ productColumns) ∧
    other.bands.Perm (table.bands ++ further)
  count : other.rows.length = table.rows.length
  /-- Every row has a cell for every column. -/
  full : ∀ row ∈ table.rows, row.length = table.columns.length
  full_other : ∀ row ∈ other.rows, row.length = other.columns.length

variable {table other : Table}

theorem Table.map_fst_bands (table : Table) : table.bands.map Prod.fst = table.columns := by
  unfold bands
  rw [List.map_map]
  exact List.zipIdx_map_fst 0 table.columns

theorem Table.mem_bands_iff {cells : List (Option Cell)} :
    (name, cells) ∈ table.bands ↔
      ∃ i : Nat, table.columns[i]? = some name ∧ cells = table.rows.map fun row => row[i]? := by
  unfold bands
  rw [List.mem_map]
  constructor
  · rintro ⟨⟨column, i⟩, hmem, heq⟩
    cases heq
    exact ⟨i, List.mk_mem_zipIdx_iff_getElem?.1 hmem, rfl⟩
  · rintro ⟨i, hi, rfl⟩
    exact ⟨(name, i), List.mk_mem_zipIdx_iff_getElem?.2 hi, rfl⟩

/-- A name that is there once stands for the one place where it is. -/
theorem placeOf?_of_count (hcount : columns.count name ≤ 1) (hi : columns[i]? = some name) :
    placeOf? columns name = some i := by
  refine placeOf?_eq_some_iff.2 ⟨hi, fun j hj hname => ?_⟩
  obtain ⟨hilt, hieq⟩ := List.getElem?_eq_some_iff.1 hi
  obtain ⟨hjlt, hjeq⟩ := List.getElem?_eq_some_iff.1 hname
  have htwice : List.Duplicate name columns := List.duplicate_iff_exists_distinct_get.2
    ⟨⟨i, hilt⟩, ⟨j, hjlt⟩, hj, hieq.symm, hjeq.symm⟩
  have := List.duplicate_iff_two_le_count.1 htwice
  omega

/-- What is read under a name that is there once is the cell in its column. -/
theorem readNamed_of_count {α : Type} {convert : Cell → Except CellFlaw α} {cell : Cell}
    (hcount : columns.count name ≤ 1) (hi : columns[i]? = some name) (hcell : row[i]? = some cell) :
    readNamed convert columns row name = (convert cell).mapError (.columnDecode (.name name)) := by
  unfold readNamed
  rw [placeOf?_of_count hcount hi]
  dsimp only
  unfold Cell.readAt
  rw [hcell]
  dsimp only
  cases convert cell <;> rfl

theorem Table.Rearranged.count_eq (h : table.Rearranged other) (hname : name ∈ productColumns) :
    other.columns.count name = table.columns.count name := by
  obtain ⟨further, hfurther, hperm⟩ := h.bands
  have hnone : (further.map Prod.fst).count name = 0 := by
    refine List.count_eq_zero_of_not_mem fun hmem => ?_
    obtain ⟨band, hband, rfl⟩ := List.mem_map.1 hmem
    exact hfurther band hband hname
  rw [← other.map_fst_bands, (hperm.map Prod.fst).count_eq, List.map_append, List.count_append,
    hnone, map_fst_bands, Nat.add_zero]

/-- What is read under a name is the same wherever its column stands. -/
theorem Table.Rearranged.readNamed_eq {α : Type} {convert : Cell → Except CellFlaw α} {r : Nat}
    {row' : List Cell} (h : table.Rearranged other) (hname : name ∈ productColumns)
    (hcount : table.columns.count name ≤ 1) (hrow : table.rows[r]? = some row)
    (hrow' : other.rows[r]? = some row') :
    readNamed convert other.columns row' name = readNamed convert table.columns row name := by
  have hcount' := h.count_eq hname
  by_cases hmem : name ∈ table.columns
  · obtain ⟨i, hi⟩ := List.getElem?_of_mem hmem
    obtain ⟨further, -, hperm⟩ := h.bands
    have hband := hperm.symm.subset (List.mem_append_left _ (mem_bands_iff.2 ⟨i, hi, rfl⟩))
    obtain ⟨j, hj, hcells⟩ := mem_bands_iff.1 hband
    have hilt : i < row.length := by
      rw [h.full row (List.mem_of_getElem? hrow)]
      exact (List.getElem?_eq_some_iff.1 hi).1
    have hcell : row[i]? = some row[i] := List.getElem?_eq_getElem hilt
    have hcell' : row'[j]? = some row[i] := by
      have hat := congrArg (fun cells => cells[r]?) hcells
      simp only [List.getElem?_map, hrow, hrow', Option.map_some, Option.some.injEq] at hat
      rw [← hat, hcell]
    rw [readNamed_of_count hcount hi hcell, readNamed_of_count (by omega) hj hcell']
  · have hmem' : name ∉ other.columns := by
      rw [← List.count_eq_zero] at hmem ⊢
      omega
    unfold readNamed
    rw [placeOf?_eq_none_iff.2 hmem, placeOf?_eq_none_iff.2 hmem']

/-- **Rows are read alike** wherever the columns stand. -/
theorem Table.Rearranged.readings_eq (h : table.Rearranged other)
    (hcount : ∀ name ∈ productColumns, table.columns.count name ≤ 1) :
    other.readings = table.readings := by
  refine List.ext_getElem? fun r => ?_
  unfold readings
  rw [List.getElem?_map, List.getElem?_map]
  cases hrow : table.rows[r]? with
  | none =>
    rw [List.getElem?_eq_none (h.count ▸ List.getElem?_eq_none_iff.1 hrow)]
    rfl
  | some row =>
    have hlt : r < other.rows.length := by
      rw [h.count]
      exact (List.getElem?_eq_some_iff.1 hrow).1
    obtain ⟨row', hrow'⟩ : ∃ row', other.rows[r]? = some row' := ⟨_, List.getElem?_eq_getElem hlt⟩
    have hread : ∀ {α : Type} {convert : Cell → Except CellFlaw α}, ∀ name ∈ productColumns,
        readNamed convert other.columns row' name = readNamed convert table.columns row name :=
      fun name hname => h.readNamed_eq hname (hcount name hname) hrow hrow'
    rw [hrow']
    simp only [Option.map_some, Option.some.injEq]
    unfold readProduct
    rw [hread "id" (by decide), hread "name" (by decide), hread "additional_info" (by decide)]

/-! ### Calls that read products -/

/-- The calls that read products. -/
inductive ReadsProducts : StoreCall → Prop
  | find (id : Int64) : ReadsProducts (.find id)
  | list : ReadsProducts .list
  | page (window : Window) : ReadsProducts (.page window)
  | update (id : Int64) (draft : Draft) : ReadsProducts (.update id draft)
  | delete (id : Int64) : ReadsProducts (.delete id)

/-- What is listed: all products, or those of a window. -/
def listing (window : Option Window) (replies : List Reply) : Except StoreError (List Product) :=
  match window with
  | none => (perform .list replies).result
  | some window => (perform (.page window) replies).result

variable {call : StoreCall} {window : Option Window} {reply : Reply} {later : List Reply}
  {failure : StoreError}

theorem listing_cons (window : Option Window) (reply : Reply) (later : List Reply) :
    listing window (reply :: later) =
      (reply.table.bind Table.products).mapError DriverError.toStoreError := by
  cases window with
  | none =>
    unfold listing perform Exchange.answer Exchange.single nextReply
    dsimp only
    cases reply.table.bind Table.products <;> rfl
  | some window =>
    unfold listing perform Exchange.answer Exchange.single nextReply
    dsimp only
    cases reply.table.bind Table.products <;> rfl

theorem listing_eq_ok_iff {products : List Product} :
    listing window (reply :: later) = .ok products ↔
      ∃ table, reply = .rows table ∧ List.Forall₂ (RowOf table.columns) table.rows products := by
  rw [listing_cons]
  cases reply with
  | failure detail code => exact iff_of_false nofun nofun
  | drop => exact iff_of_false nofun nofun
  | rows table =>
    simp only [Reply.rows.injEq, exists_eq_left', ← Table.products_eq_ok_iff]
    show table.products.mapError DriverError.toStoreError = .ok products ↔ _
    cases table.products <;> simp [Except.mapError]

/-- The server says that it cancelled the statement. -/
def Reply.Cancels (reply : Reply) : Prop :=
  ∃ detail code, reply = .failure detail code ∧ DriverError.cancellation <:+: detail.toList

/-- Why a listing fails: it was cancelled, or it cannot be had at all. -/
theorem listing_error_cases (h : listing window (reply :: later) = .error failure) :
    (reply.Cancels ∧ failure = .timeout) ∨
      (¬ reply.Cancels ∧ ∃ detail, failure = .persistence detail) := by
  rw [listing_cons] at h
  cases hread : reply.table.bind Table.products with
  | ok products =>
    rw [hread] at h
    cases h
  | error e =>
    rw [hread] at h
    cases h
    have hflaw : Said.flaw? .list ⟨.list, reply⟩ = some e := by
      rw [Said.flaw?_eq_some_iff]
      cases reply with
      | failure detail code => cases hread; rfl
      | drop => cases hread; rfl
      | rows table =>
        change table.products = .error e at hread
        show table.products.map (fun _ => ()) = .error e
        rw [hread]
        rfl
    have hclassified : Classified .list e e.toStoreError := classified_toStoreError nofun
    generalize e.toStoreError = failure at hclassified ⊢
    cases hclassified with
    | missing hc => cases hc
    | unconnected => exact absurd hflaw Said.flaw?_ne_poolTimedOut
    | cancelled hin => exact Or.inl ⟨⟨_, _, Said.flaw?_database_iff.1 hflaw, hin⟩, rfl⟩
    | other _ _ hout =>
      refine Or.inr ⟨?_, _, rfl⟩
      rintro ⟨detail, code, hreply, hin⟩
      exact hout _ _ (Option.some.inj (hflaw.symm.trans (Said.flaw?_database_iff.2 hreply))) hin

/-- A call that reads products asks nothing of an answer but what its rows are read as. -/
theorem perform_congr (h : other.readings = table.readings) (hcall : ReadsProducts call)
    (later : List Reply) :
    perform call (.rows other :: later) = perform call (.rows table :: later) := by
  have hproduct : other.product = table.product := by
    rw [other.product_eq, table.product_eq, h]
  have hproducts : other.products = table.products := by
    rw [other.products_eq, table.products_eq, h]
  have hanswer : ∀ {α : Type} {call : StoreCall} {statement : Statement}
      {read : Table → Except DriverError α} {fail : DriverError → StoreError}
      {value : α → Except StoreError call.Value}, read other = read table →
        (Exchange.single statement read (.rows other :: later)).answer fail value =
          (Exchange.single statement read (.rows table :: later)).answer fail value := by
    intro α call statement read fail value hread
    show Exchange.answer ⟨read other, [statement], later⟩ fail value =
      Exchange.answer ⟨read table, [statement], later⟩ fail value
    rw [hread]
  cases hcall with
  | find id => exact hanswer hproduct
  | list => exact hanswer hproducts
  | page window => exact hanswer hproducts
  | update id draft => exact hanswer hproduct
  | delete id => exact hanswer hproduct

/-- **A listing gives all rows or none, by the names of the columns.** Whatever the server replies:
* products are listed just if it sent rows, and they are the products of those rows one by one;
* that is the case just if every row has an integer under `id` and texts under `name` and
  `additional_info`;
* otherwise there is no list but a failure: a timeout if the server says that it cancelled the
  statement, and else a failure to persist.

And whatever reads products gives the same, from the same statements, if the columns of the answer
stand in other places or if others come in between, as long as no name from which products are read
stands over two of them. -/
theorem listed_whole_by_name :
    (∀ window reply later,
      (∀ products, listing window (reply :: later) = .ok products ↔
        ∃ table, reply = .rows table ∧ List.Forall₂ (RowOf table.columns) table.rows products) ∧
      ((∃ products, listing window (reply :: later) = .ok products) ↔
        ∃ table, reply = .rows table ∧ ∀ row ∈ table.rows, ∃ id name info,
          CellUnder table.columns row "id" (.integer id) ∧
          CellUnder table.columns row "name" (.text name) ∧
          CellUnder table.columns row "additional_info" (.text info)) ∧
      ∀ failure, listing window (reply :: later) = .error failure →
        (reply.Cancels ∧ failure = .timeout) ∨
          (¬ reply.Cancels ∧ ∃ detail, failure = .persistence detail)) ∧
    ∀ call table other later, ReadsProducts call → table.Rearranged other →
      (∀ name ∈ productColumns, table.columns.count name ≤ 1) →
        perform call (.rows other :: later) = perform call (.rows table :: later) := by
  refine ⟨fun window reply later => ⟨fun products => listing_eq_ok_iff, ?_, fun failure h =>
    listing_error_cases h⟩, fun call table other later hcall hother hcount =>
      perform_congr (hother.readings_eq hcount) hcall later⟩
  simp only [listing_eq_ok_iff]
  constructor
  · rintro ⟨products, table, hreply, hrows⟩
    refine ⟨table, hreply, fun row hrow => ?_⟩
    obtain ⟨product, h⟩ := exists_products_iff.1 ⟨products, hrows⟩ row hrow
    exact ⟨_, _, _, h.id, h.name, h.info⟩
  · rintro ⟨table, hreply, hrows⟩
    obtain ⟨products, hproducts⟩ := exists_products_iff.2 fun row hrow =>
      have ⟨id, name, info, hid, hname, hinfo⟩ := hrows row hrow
      ⟨⟨id, name, info⟩, hid, hname, hinfo⟩
    exact ⟨products, table, hreply, hproducts⟩

/-- A table and another one, with a column of notes between the columns in other places. -/
theorem listed_whole_by_name_notes :
    ReadsProducts .list ∧
    (Table.mk ["id", "name", "additional_info"]
      [[.integer 1, .text "a", .text "b"], [.integer 2, .text "c", .text "d"]]).Rearranged
        ⟨["additional_info", "note", "id", "name"],
          [[.text "b", .null, .integer 1, .text "a"],
            [.text "d", .integer 7, .integer 2, .text "c"]]⟩ ∧
    (perform .list [.rows ⟨["additional_info", "note", "id", "name"],
      [[.text "b", .null, .integer 1, .text "a"],
        [.text "d", .integer 7, .integer 2, .text "c"]]⟩]).result =
          .ok [⟨1, "a", "b"⟩, ⟨2, "c", "d"⟩] := by
  have hother : (Table.mk ["id", "name", "additional_info"]
      [[.integer 1, .text "a", .text "b"], [.integer 2, .text "c", .text "d"]]).Rearranged
        ⟨["additional_info", "note", "id", "name"],
          [[.text "b", .null, .integer 1, .text "a"],
            [.text "d", .integer 7, .integer 2, .text "c"]]⟩ :=
    ⟨⟨[("note", [some .null, some (.integer 7)])], by decide, by decide⟩, rfl, by decide,
      by decide⟩
  refine ⟨.list, hother, ?_⟩
  rw [listed_whole_by_name.2 .list _ _ [] .list hother (by decide)]
  rfl

/-- **Two columns of one name are told apart by their places**, so the answer changes when they
change places; and a cancelled statement is no failure to persist. -/
theorem namesakes_and_cancellations :
    ((Table.mk ["id", "name", "name", "additional_info"]
      [[.integer 1, .text "a", .text "b", .text "c"]]).Rearranged
        ⟨["id", "name", "name", "additional_info"],
          [[.integer 1, .text "b", .text "a", .text "c"]]⟩ ∧
      (perform (.find 1) [.rows ⟨["id", "name", "name", "additional_info"],
        [[.integer 1, .text "a", .text "b", .text "c"]]⟩]).result = .ok ⟨1, "b", "c"⟩ ∧
      (perform (.find 1) [.rows ⟨["id", "name", "name", "additional_info"],
        [[.integer 1, .text "b", .text "a", .text "c"]]⟩]).result = .ok ⟨1, "a", "c"⟩) ∧
    listing none [.failure "canceling statement due to user request" "57014"] =
      .error .timeout :=
  ⟨⟨⟨⟨[], nofun, by decide⟩, rfl, by decide, by decide⟩, rfl, rfl⟩, rfl⟩

end Sql

end Catalogue
