import Montage.Proofs.Render.Outcome

/-!
# What a render leaves behind

A render changes files in three steps.  It makes the directory of the output, then the
engine runs with whatever effects it has, and in the end the temporary inputs are cleared
away.  Each of the first two may be the last before the third, but the third is always
taken: however a render ends, no temporary input leads to a file (`render_cleans`).
-/

namespace Montage.Render

open Montage.Action

theorem prepared_makes (plan : Plan Number) (host : Host) :
    FileTree.Makes host.place (Path.parent plan.target).toList host.files
      (prepared plan host) := by
  unfold prepared
  simp only
  split
  · exact FileTree.makes_refl _ _ _
  · exact host.files.makePath_makes host.place (Path.parent plan.target)

theorem left_eq (plan : Plan Number) (command : List String) (host : Host) :
    left plan command host = prepared plan host ∨ left plan command host = finished plan host := by
  unfold left
  split
  · split
    · exact .inr rfl
    · exact .inl rfl
  · exact .inl rfl

/-- What becomes of the files in a render: what is left before the cleaning is cleared of
the temporary inputs, up to one that the system does not let go.  A render that goes well had the
output before that, and clears all of them away. -/
structure Renders {α : Type} (plan : Plan Number) (host : Host) (outcome : Except Failure α)
    (after : Host) : Prop where
  directory : after.directory = host.directory
  held : after.held = host.held
  files : ∃ ended, (ended = prepared plan host ∨ ended = finished plan host) ∧
    after.files = (ended.clearUpTo host.place host.held plan.temporaryPaths).1 ∧
    ((ended.clearUpTo host.place host.held plan.temporaryPaths).2 = true ∨
      outcome = .error .system)
  output : ∀ a, outcome = .ok a →
    (finished plan host).isFile host.place plan.target = true ∧
      after.files = (finished plan host).clear host.place plan.temporaryPaths

theorem render_leaves (plan : Plan Number) (config : Config) (host : Host) :
    Leaves (render plan config) host fun outcome after =>
      (∀ path, outcome = .ok path → path = plan.target) ∧ Renders plan host outcome after := by
  obtain ⟨hresult, hdirectory, hheld, hfiles, -⟩ := render_accounts plan config host
  refine ⟨fun path hpath => (of_outcome (hresult.symm.trans hpath)).1, hdirectory, hheld,
    ⟨left plan _ host, left_eq plan _ host, hfiles, ?_⟩, fun path hpath => ?_⟩
  · cases hall : (swept plan (commandOf plan config host) host).2 with
    | true => exact .inl hall
    | false =>
        refine .inr (hresult.trans (Ends.error_bind ?_))
        rw [cleaned, hall, if_neg Bool.false_ne_true]
  · obtain ⟨-, hall, hproduced⟩ := of_outcome (hresult.symm.trans hpath)
    obtain ⟨-, -, -, hwritten⟩ := of_produced hproduced
    refine ⟨hwritten, hfiles.trans ?_⟩
    rw [swept, FileTree.clearUpTo_of_unheld hall, left_of_produced hproduced]

/-- **However a render ends, its temporary inputs are cleared away,** as far as the system lets
go of them: the only way to leave one behind is that its removal is refused, and the render fails
for this.  Before that, the directory of the output may have been made and the engine may have
had its effects; nothing else becomes of the files. -/
theorem render_cleans (plan : Plan Number) (config : Config) (host : Host) :
    let outcome := ((render plan config).runOn host).1
    let after := ((render plan config).runOn host).2
    ((∀ path ∈ plan.temporaryPaths, after.isFile path = false) ∨
        outcome = .error .system ∧
          ∃ path ∈ plan.temporaryPaths, after.isFile path = true ∧ after.holds path = true) ∧
      FileTree.Makes host.place (Path.parent plan.target).toList host.files (prepared plan host) ∧
      ∃ ended, (ended = prepared plan host ∨ ended = finished plan host) ∧
        FileTree.Clears host.place plan.temporaryPaths ended after.files := by
  intro outcome after
  obtain ⟨-, hdirectory, hheld, ⟨ended, hended, hfiles, hall⟩, -⟩ := render_leaves plan config host
  have hplace : after.place = host.place := place_congr hdirectory
  refine ⟨?_, prepared_makes plan host, ended, hended, ?_⟩
  · cases hswept : (ended.clearUpTo host.place host.held plan.temporaryPaths).2 with
    | true =>
        refine .inl fun path hpath => ?_
        rw [Host.isFile, hplace, hfiles, FileTree.clearUpTo_of_unheld hswept]
        exact FileTree.isFile_clear_of_mem hpath
    | false =>
        obtain ⟨path, hpath, hfile, hnamed⟩ := FileTree.exists_held_of_clearUpTo hswept
        rw [hswept] at hall
        refine .inr ⟨hall.resolve_left Bool.false_ne_true, path, hpath, ?_, ?_⟩
        · rw [Host.isFile, hplace, hfiles, hfile]
        · rw [Host.holds, hplace, hfiles, hheld, hnamed]
  · rw [hfiles]
    exact FileTree.clearUpTo_clears ended host.place host.held plan.temporaryPaths

end Montage.Render
