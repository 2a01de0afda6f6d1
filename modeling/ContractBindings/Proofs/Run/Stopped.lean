import ContractBindings.Proofs.Run.Written

/-!
# What is left when writing fails

Modules are written one after the other, and nothing takes back what is on the disk already when one
of them cannot be written. So writing is not all or nothing (`writes_some_and_fails`). It stops at
the first fault, and up to that it leaves what the modules in front of the fault leave when they are
written alone: their files, the directories on the way to the output directory, and all else as it
was (`exists_stopped`).

What happens to the module at fault depends on when the fault strikes. Before its file is opened,
nothing has happened to it. After that, the file is there, its former bytes are gone, and it holds
as much of the text as the disk has taken, as on a full disk (`exists_stopped_full`).

Nothing is supposed of the names of modules here. Two paths may lead to one location, where the
later module then stands.
-/

namespace ContractBindings

open Files (Disk Entry Location Tree)

variable {world after : World} {current : Location} {directory : String}
  {modules : List SourceModule} {error : GenerationError}

/-- A module that cannot be written changes nothing, unless its file has been opened. -/
theorem exists_of_writeModule_eq_error {m : SourceModule}
    (h : (writeModule (World.host current) directory m).run world = (.error error, after)) :
    ∃ fault, error = .write (Files.join directory m.fileName) fault ∧
      world.files.write world.disk current (Files.join directory m.fileName) m.text.toUTF8 =
        (.error fault, after.files) ∧
      (after.files = world.files ∨
        Tree.BreaksOff world.disk current (Files.join directory m.fileName) m.text.toUTF8 fault
          world.files after.files) := by
  rcases error_or_exists_of_run_bind_eq_error h with hfails | ⟨⟨⟩, middle, -, h⟩
  · obtain ⟨fault, rfl, hrun⟩ := exists_of_run_adapt_eq_error hfails
    obtain ⟨hwrite, -⟩ := write_of_run_writeFile hrun
    exact ⟨fault, rfl, hwrite, Tree.eq_or_breaksOff_of_write_eq_error hwrite⟩
  · cases h

/-- **Writing stops at the first fault**, which its error names, and takes nothing back. The modules
in front of the fault have led to the tree `middle`. The module at fault leaves that as it is, or
has broken off in it. -/
theorem exists_stopped
    (h : (writeModules (World.host current) directory modules).run world = (.error error, after)) :
    ∃ written unwritten fault middle, modules = written ++ unwritten ∧
      Wrote current directory written world.files middle ∧
      (written = [] ∧ error = .write directory fault ∧ after.files = middle ∧
          world.files.createDirectories world.disk current directory =
            (.error fault, after.files) ∨
        ∃ failed later, unwritten = failed :: later ∧
          error = .write (Files.join directory failed.fileName) fault ∧
          middle.write world.disk current (Files.join directory failed.fileName)
            failed.text.toUTF8 = (.error fault, after.files) ∧
          (after.files = middle ∨
            Tree.BreaksOff world.disk current (Files.join directory failed.fileName)
              failed.text.toUTF8 fault middle after.files)) := by
  rcases error_or_exists_of_run_bind_eq_error h with hfails | ⟨⟨⟩, made, hcreate, h⟩
  · obtain ⟨fault, rfl, hrun⟩ := exists_of_run_adapt_eq_error hfails
    obtain ⟨hadds, -⟩ := addsDirectories_of_run_createDirectories hrun
    obtain ⟨hfails, -⟩ := files_of_run_changing
      (fun disk files ↦ files.createDirectories disk current directory) hrun
    exact ⟨[], modules, fault, after.files, rfl,
      Overwrote.wrote hadds (.nil current directory after.files), .inl ⟨rfl, rfl, rfl, hfails⟩⟩
  · obtain ⟨hadds, hmade⟩ :=
      addsDirectories_of_run_createDirectories (run_eq_of_run_adapt_eq_ok hcreate)
    obtain ⟨written, failed, later, paths, middle, rfl, hwritten, hfailed⟩ :=
      exists_of_run_mapM_eq_error h
    obtain ⟨-, hoverwrote, hmiddle⟩ := overwrote_of_mapM hwritten
    obtain ⟨fault, rfl, hwrite, hleft⟩ := exists_of_writeModule_eq_error hfailed
    rw [hmiddle, hmade] at hwrite hleft
    exact ⟨written, failed :: later, fault, middle.files, rfl, hoverwrote.wrote hadds,
      .inr ⟨failed, later, rfl, rfl, hwrite, hleft⟩⟩

/-- The number of bytes that an entry takes up. -/
def Files.Entry.size : Entry → Nat
  | .directory => 0
  | .file content => content.size

/-- A disk that takes a number of bytes in all. -/
def Files.Disk.ofCapacity (capacity : Nat) : Disk where
  refusal? _ _ := none
  limit? tree _ := some ⟨capacity - tree.entries.foldr (fun e taken ↦ e.2.size + taken) 0,
    .other "No space left on device (os error 28)"⟩

/-- Writing two modules to a disk that has room for one and a half. The second one is in place of a
file, which is cut off. A file next to them is left alone. -/
theorem exists_stopped_full :
    let modules : List SourceModule := [⟨"Token.ts", "ab"⟩, ⟨"TokenImpl.ts", "cd"⟩]
    let files := ((Tree.empty.set ["out"] .directory).set ["out", "TokenImpl.ts"]
      (.file "e".toUTF8)).set ["out", "notes"] (.file "f".toUTF8)
    let world := { World.ofFiles files fun _ ↦ .silence with disk := .ofCapacity 4 }
    let full : Files.Fault := .other "No space left on device (os error 28)"
    ∃ after, (writeModules (World.host []) "out" modules).run world =
        (.error (.write "out/TokenImpl.ts" full), after) ∧
      (∃ written failed later middle, modules = written ++ failed :: later ∧
        Wrote [] "out" written files middle ∧
        (after.files = middle ∨
          Tree.BreaksOff world.disk [] (Files.join "out" failed.fileName) failed.text.toUTF8 full
            middle after.files)) ∧
      after.files.read [] "out/Token.ts" = .ok "ab".toUTF8 ∧
      after.files.read [] "out/TokenImpl.ts" = .ok "c".toUTF8 ∧
      after.files.read [] "out/notes" = .ok "f".toUTF8 := by
  intro modules files world full
  have herror : ((writeModules (World.host []) "out" modules).run world).1 =
      .error (.write "out/TokenImpl.ts" full) := by
    decide +kernel
  obtain ⟨written, unwritten, fault, middle, hmodules, hwrote, hstops⟩ :=
    exists_stopped (run_eq_of_fst herror)
  obtain ⟨-, hdirectory, -⟩ | ⟨failed, later, rfl, hfailed, -, hleft⟩ := hstops
  · exact absurd (GenerationError.write.inj hdirectory).1 (by decide)
  · obtain ⟨-, rfl⟩ := GenerationError.write.inj hfailed
    exact ⟨_, run_eq_of_fst herror, ⟨written, failed, later, middle, hmodules, hwrote, hleft⟩,
      by decide +kernel, by decide +kernel, by decide +kernel⟩

/-- When the second of two modules cannot be written, the first one is there. -/
theorem writes_some_and_fails :
    ¬ ∀ (current : Location) (directory : String) (modules : List SourceModule)
      (world after : World) (error : GenerationError),
      (writeModules (World.host current) directory modules).run world = (.error error, after) →
        (∀ location content, world.files.get? location = some (.file content) →
          after.files.get? location = some (.file content)) ∧
        ∀ m ∈ modules,
          (after.files.read current (Files.join directory m.fileName)).toOption.isSome →
            (world.files.read current (Files.join directory m.fileName)).toOption.isSome := by
  intro h
  let modules : List SourceModule := [⟨"Token.ts", "A\n"⟩, ⟨"TokenImpl.ts", "B\n"⟩]
  let files := (Tree.empty.set ["out"] .directory).set ["out", "TokenImpl.ts"] .directory
  let world := World.ofFiles files fun _ ↦ .silence
  have herror : ((writeModules (World.host []) "out" modules).run world).1 =
      .error (.write "out/TokenImpl.ts" .isDirectory) := by
    decide +kernel
  obtain ⟨-, hcreated⟩ := h [] "out" modules world _ _ (run_eq_of_fst herror)
  have hbefore : ¬ (files.read [] "out/Token.ts").toOption.isSome := by decide +kernel
  refine hbefore (hcreated ⟨"Token.ts", "A\n"⟩ List.mem_cons_self ?_)
  decide +kernel

end ContractBindings
