import Interpose.Proofs.Execution
import Mathlib.Data.List.Nodup

/-!
# Filled cells

Every loop of a generated method fills cells, each its own. `foldlM_fills` says what a loop that
does so leaves behind, `exec_rows` reads the statements of a loop as such a loop.
-/

namespace Interpose.Execution

variable {V α : Type}

namespace Cells

def fill (cells : Cells V) (writes : List (String × Option (Content V))) : Cells V :=
  writes.foldl (fun cells write => Function.update cells write.1 (some write.2)) cells

@[simp] theorem fill_nil (cells : Cells V) : cells.fill [] = cells := rfl

@[simp] theorem fill_cons (cells : Cells V) (write : String × Option (Content V))
    (writes : List (String × Option (Content V))) :
    cells.fill (write :: writes) = fill (Function.update cells write.1 (some write.2)) writes := rfl

theorem fill_other {cells : Cells V} {writes : List (String × Option (Content V))} {name : String}
    (untouched : name ∉ writes.map (·.1)) : cells.fill writes name = cells name := by
  induction writes generalizing cells with
  | nil => rfl
  | cons write writes ih =>
    rw [List.map_cons, List.mem_cons, not_or] at untouched
    rw [fill_cons, ih untouched.2, Function.update_of_ne untouched.1]

theorem fill_same {cells : Cells V} {writes : List (String × Option (Content V))}
    {write : String × Option (Content V)} (distinct : (writes.map (·.1)).Nodup)
    (member : write ∈ writes) : cells.fill writes write.1 = some write.2 := by
  induction writes generalizing cells with
  | nil => simp at member
  | cons first writes ih =>
    rw [List.map_cons, List.nodup_cons] at distinct
    rw [fill_cons]
    rcases List.mem_cons.mp member with rfl | member
    · rw [fill_other distinct.1, Function.update_self]
    · exact ih distinct.2 member

theorem read_eq {cells : Cells V} {word name : String} (spelled : identified word = some name) :
    cells.read word = (cells name).join := by
  simp [read, spelled]

theorem declare_eq {cells : Cells V} {word name : String} (spelled : identified word = some name)
    (fresh : cells name = none) (content : Option (Content V)) :
    cells.declare word content = some (Function.update cells name (some content)) := by
  simp [declare, spelled, fresh]

theorem assign_eq {cells : Cells V} {word name : String} (spelled : identified word = some name)
    (declared : cells name ≠ none) (content : Content V) :
    cells.assign word content = some (Function.update cells name (some (some content))) := by
  simp [assign, spelled, Option.isSome_iff_ne_none, declared]

end Cells

/-- One write for each row that has a cell. -/
def writes (cell : α → Option String) (content : α → Option (Content V)) (rows : List α) :
    List (String × Option (Content V)) :=
  rows.filterMap fun row => (cell row).map (·, content row)

theorem writes_names (cell : α → Option String) (content : α → Option (Content V))
    (rows : List α) : (writes cell content rows).map (·.1) = rows.filterMap cell := by
  rw [writes, List.map_filterMap]
  congr
  funext row
  cases cell row <;> rfl

/-- A cell that one row has holds the content of that row. -/
theorem fill_writes {cells : Cells V} {cell : α → Option String}
    {content : α → Option (Content V)} {rows : List α} (distinct : (rows.filterMap cell).Nodup)
    {row : α} (member : row ∈ rows) {name : String} (cell_eq : cell row = some name) :
    cells.fill (writes cell content rows) name = some (content row) := by
  have written : (name, content row) ∈ writes cell content rows :=
    List.mem_filterMap.mpr ⟨row, member, by rw [cell_eq, Option.map_some]⟩
  exact Cells.fill_same (by rwa [writes_names]) written

theorem fill_writes_other {cells : Cells V} {cell : α → Option String}
    {content : α → Option (Content V)} {rows : List α} {name : String}
    (untouched : name ∉ rows.filterMap cell) :
    cells.fill (writes cell content rows) name = cells name :=
  Cells.fill_other (by rwa [writes_names])

/-- A loop whose steps each fill the cell of their row, and that finds everything else as it was at
the beginning. -/
theorem foldlM_fills {σ : Type} (put : Cells V → σ) {action : σ → α → Option σ}
    {cell : α → Option String} {content : α → Option (Content V)} {rows : List α}
    {cells : Cells V} (distinct : (rows.filterMap cell).Nodup)
    (idle : ∀ row ∈ rows, ∀ current, cell row = none →
      action (put current) row = some (put current))
    (acts : ∀ row ∈ rows, ∀ current name, cell row = some name → current name = cells name →
      (∀ other ∉ rows.filterMap cell, current other = cells other) →
      action (put current) row = some (put (Function.update current name (some (content row))))) :
    rows.foldlM action (put cells) = some (put (cells.fill (writes cell content rows))) := by
  -- A later step finds its own cell as it was too, for the steps before it filled others.
  suffices general : ∀ current, (∀ name ∈ rows.filterMap cell, current name = cells name) →
      (∀ other ∉ rows.filterMap cell, current other = cells other) →
      rows.foldlM action (put current) = some (put (current.fill (writes cell content rows))) from
    general cells (fun _ _ => rfl) (fun _ _ => rfl)
  generalize known : rows.filterMap cell = names at acts
  have inside : ∀ row ∈ rows, ∀ name, cell row = some name → name ∈ names :=
    fun row member name cell_eq => known ▸ List.mem_filterMap.mpr ⟨row, member, cell_eq⟩
  intro current own frame
  replace own : ∀ name ∈ rows.filterMap cell, current name = cells name := known ▸ own
  clear known
  induction rows generalizing current with
  | nil => rfl
  | cons row rows ih =>
    have later {next : Cells V} (own : ∀ name ∈ rows.filterMap cell, next name = cells name)
        (frame : ∀ other ∉ names, next other = cells other) (fresh : (rows.filterMap cell).Nodup) :=
      ih fresh (fun row member => idle row (List.mem_cons_of_mem _ member))
        (fun row member => acts row (List.mem_cons_of_mem _ member))
        (fun row member => inside row (List.mem_cons_of_mem _ member)) next frame own
    rw [List.foldlM_cons]
    cases cell_eq : cell row with
    | none =>
      rw [List.filterMap_cons_none cell_eq] at distinct own
      rw [idle row List.mem_cons_self current cell_eq, Option.bind_eq_bind, Option.bind_some,
        later own frame distinct]
      simp [writes, cell_eq]
    | some name =>
      rw [List.filterMap_cons_some cell_eq] at own distinct
      rw [List.nodup_cons] at distinct
      have stepped := acts row List.mem_cons_self current name cell_eq (own name List.mem_cons_self)
        frame
      have within := inside row List.mem_cons_self name cell_eq
      rw [stepped, Option.bind_eq_bind, Option.bind_some, later ?_ ?_ distinct.2]
      · simp [writes, cell_eq]
      · intro other member
        have apart : other ≠ name := fun same => distinct.1 (same ▸ member)
        rw [Function.update_of_ne apart, own other (List.mem_cons_of_mem _ member)]
      · intro other outside
        have apart : other ≠ name := fun same => outside (same ▸ within)
        rw [Function.update_of_ne apart, frame other outside]

/-! ### Statements -/

/-- The frame behind a statement that lets the code run on. -/
def advance (implementation : Implementation V) (frame : Frame V) (statement : Stmt) :
    Option (Frame V) :=
  match step implementation frame statement with
  | some (.runsOn, next) => some next
  | _ => none

theorem advance_eq {implementation : Implementation V} {frame next : Frame V} {statement : Stmt}
    (runs : step implementation frame statement = some (.runsOn, next)) :
    advance implementation frame statement = some next := by
  rw [advance, runs]

theorem exec_cons_of (implementation : Implementation V) {frame next : Frame V} {statement : Stmt}
    (runs : step implementation frame statement = some (.runsOn, next)) (rest : List Stmt) :
    exec implementation frame (statement :: rest) = exec implementation next rest := by
  rw [exec, runs]

theorem exec_of_foldlM {implementation : Implementation V} {frame next : Frame V}
    {statements : List Stmt} (rest : List Stmt)
    (runs : statements.foldlM (advance implementation) frame = some next) :
    exec implementation frame (statements ++ rest) = exec implementation next rest := by
  induction statements generalizing frame with
  | nil =>
    obtain rfl := Option.some.inj runs
    rfl
  | cons statement statements ih =>
    rw [List.foldlM_cons, Option.bind_eq_bind, Option.bind_eq_some_iff] at runs
    obtain ⟨middle, advanced, runs⟩ := runs
    rw [advance] at advanced
    split at advanced
    · rename_i reached stepped
      obtain rfl := Option.some.inj advanced
      rw [List.cons_append, exec, stepped]
      exact ih runs
    · cases advanced

theorem exec_rows {implementation : Implementation V} {statement : α → Option Stmt}
    {frame next : Frame V} {rows : List α} (rest : List Stmt)
    (runs : rows.foldlM (fun frame row =>
      match statement row with
      | none => some frame
      | some made => advance implementation frame made) frame = some next) :
    exec implementation frame (rows.filterMap statement ++ rest) =
      exec implementation next rest := by
  refine exec_of_foldlM rest ?_
  rw [List.foldlM_filterMap]
  refine Eq.trans ?_ runs
  congr
  funext frame row
  cases statement row <;> rfl

end Interpose.Execution
