import Campaign.Proofs.Containment
import Campaign.Proofs.DiskWrites

namespace Campaign.CommandLine

def Request.Exports (request : Request) (disk : Disk) (path : Path) : Prop :=
  (∃ built, Index.build disk.fileSystem request.root request.dialect = .ok built) ∧
    ∃ place, disk.locate .file path.text = .ok place

def Request.printing (request : Request) : Request := { request with command := .exporting none }

variable {disk : Disk} {root path : Path} {dialect : Dialect} {request : Request}

theorem withIndex_disk {next : Index → List String → Result}
    (keeps : ∀ index errors, (next index errors).disk = disk) :
    (withIndex disk root dialect next).disk = disk := by
  unfold withIndex
  split
  · rfl
  · exact keeps _ _

theorem Request.run_disk (reads : ∀ path, request.command ≠ .exporting (some path)) :
    (request.run disk).disk = disk := by
  unfold run
  split
  · unfold runTree
    split <;> rfl
  · apply withIndex_disk
    intro index errors
    split <;> rfl
  · rename_i output asked
    apply withIndex_disk
    intro index errors
    cases output with
    | none => rfl
    | some path => exact absurd asked (reads path)
  · unfold runSummary
    split <;> rfl

theorem run_disk_of_reads {environment : Option String} {arguments : List String}
    (reads : ∀ request path, read environment arguments = .run request →
      request.command ≠ .exporting (some path)) :
    (run environment disk arguments).disk = disk := by
  unfold run
  split
  · rename_i request asked
    exact Request.run_disk fun path => reads request path asked
  · rfl
  · rfl
  · rfl

theorem run_eq {environment : Option String} {arguments : List String}
    (asked : read environment arguments = .run request) :
    run environment disk arguments = request.run disk := by
  rw [run, asked]

theorem runExport_of_not_exports (exporting : request.command = .exporting (some path))
    (hindered : ¬ request.Exports disk path) :
    (request.run disk).status = 1 ∧ (request.run disk).disk = disk := by
  have asked : request.run disk = runExport disk request.root request.dialect (some path) := by
    rw [Request.run, exporting]
  rw [asked]
  cases built : Index.build disk.fileSystem request.root request.dialect with
  | error error =>
    rw [runExport, withIndex_error built]
    exact ⟨rfl, rfl⟩
  | ok index =>
    cases located : disk.locate .file path.text with
    | ok place => exact absurd ⟨⟨index, built⟩, place, located⟩ hindered
    | error error =>
      have refused : ∀ content, disk.write path content = .error error := by
        intro content
        rw [Disk.write, located]
        rfl
      rw [runExport, withIndex, built]
      dsimp only
      rw [refused]
      exact ⟨rfl, rfl⟩

theorem runExport_of_exports (exporting : request.command = .exporting (some path))
    (exports : request.Exports disk path) :
    (request.run disk).status = 0 ∧ (request.printing.run disk).status = 0 ∧
      disk.Writes (request.run disk).disk path (request.printing.run disk).output.toUTF8 := by
  obtain ⟨⟨⟨index, anomalies⟩, built⟩, place, located⟩ := exports
  have asked : request.run disk = runExport disk request.root request.dialect (some path) := by
    rw [Request.run, exporting]
  have printed : request.printing.run disk = runExport disk request.root request.dialect none := rfl
  have written : disk.write path (String.ofList (Export.text index)) =
      .ok (disk.put place (.file (String.ofList (Export.text index)).toUTF8)) := by
    rw [Disk.write, located]
    rfl
  rw [asked, printed, runExport_ok built (some path) written, runExport_ok built none rfl]
  exact ⟨rfl, rfl, Disk.writes_put located _⟩

/-- An export to a file that can be carried out leaves the bytes in it that would have been printed,
even if the file is among the inputs, and changes nothing else. One that cannot be carried out
fails and changes nothing, and neither does any other command line. -/
theorem run_exportsFaithfully (environment : Option String) (disk : Disk)
    (arguments : List String) :
    (∀ request path, read environment arguments = .run request →
      request.command = .exporting (some path) →
      (¬ request.Exports disk path → (run environment disk arguments).status = 1 ∧
        (run environment disk arguments).disk = disk) ∧
      (request.Exports disk path → (run environment disk arguments).status = 0 ∧
        (request.printing.run disk).status = 0 ∧
        disk.Writes (run environment disk arguments).disk path
          (request.printing.run disk).output.toUTF8)) ∧
    ((∀ request path, read environment arguments = .run request →
      request.command ≠ .exporting (some path)) →
      (run environment disk arguments).disk = disk) := by
  refine ⟨fun request path asked exporting => ?_, run_disk_of_reads⟩
  rw [run_eq asked]
  exact ⟨runExport_of_not_exports exporting, runExport_of_exports exporting⟩

def oneInput : Disk where
  top := .directory [("out", .directory [("1", .directory [("2023-07-21", .directory
    [("out-a-4-1M-2023-07-21-n1-0.txt.1", .file "no report".toUTF8)])])])]
  here := []

def inputName : String := "out/1/2023-07-21/out-a-4-1M-2023-07-21-n1-0.txt.1"

def exportTo (output : String) : Request :=
  { root := .ofText "out", dialect := .ior, command := .exporting (some (.ofText output)) }

theorem run_exportsFaithfully_overInput :
    (read (some "out") ["export", "--output", inputName] = .run (exportTo inputName) ∧
      (exportTo inputName).Exports oneInput (.ofText inputName) ∧
      (run (some "out") oneInput ["export", "--output", inputName]).status = 0 ∧
      ((exportTo inputName).printing.run oneInput).status = 0 ∧
      oneInput.Writes (run (some "out") oneInput ["export", "--output", inputName]).disk
        (.ofText inputName) ((exportTo inputName).printing.run oneInput).output.toUTF8) ∧
    (read (some "out") ["export", "-o", "out"] = .run (exportTo "out") ∧
      ¬ (exportTo "out").Exports oneInput (.ofText "out") ∧
      (run (some "out") oneInput ["export", "-o", "out"]).status = 1 ∧
      (run (some "out") oneInput ["export", "-o", "out"]).disk = oneInput) ∧
    (∀ request path, read (some "out") ["tree"] = .run request →
      request.command ≠ .exporting (some path)) ∧
    (run (some "out") oneInput ["tree"]).disk = oneInput := by
  have overInput : read (some "out") ["export", "--output", inputName] =
      .run (exportTo inputName) := by decide +kernel
  have overRoot : read (some "out") ["export", "-o", "out"] = .run (exportTo "out") := by
    decide +kernel
  have listing : read (some "out") ["tree"] =
      .run { root := .ofText "out", dialect := .ior, command := .tree } := by decide +kernel
  have listed : oneInput.fileSystem.list (.ofText "out") = .ok [.ofText "out/1"] := by
    decide +kernel
  have located : oneInput.locate .file (Path.ofText inputName).text =
      .ok ["out", "1", "2023-07-21", "out-a-4-1M-2023-07-21-n1-0.txt.1"] := by decide +kernel
  have refused : oneInput.locate .file (Path.ofText "out").text = .error .isDirectory := by
    decide +kernel
  have exports : (exportTo inputName).Exports oneInput (.ofText inputName) := by
    obtain ⟨index, anomalies, built⟩ := Index.build_of_listed listed .ior
    exact ⟨⟨_, built⟩, _, located⟩
  have hindered : ¬ (exportTo "out").Exports oneInput (.ofText "out") := by
    intro exports
    obtain ⟨_, place, located⟩ := exports
    rw [refused] at located
    cases located
  have reads : ∀ request path, read (some "out") ["tree"] = .run request →
      request.command ≠ .exporting (some path) := by
    intro request path asked
    rw [listing] at asked
    cases asked
    nofun
  have written := (run_exportsFaithfully (some "out") oneInput _).1 _ _ overInput rfl
  have failed := (run_exportsFaithfully (some "out") oneInput _).1 _ _ overRoot rfl
  exact ⟨⟨overInput, exports, written.2 exports⟩, ⟨overRoot, hindered, failed.1 hindered⟩, reads,
    (run_exportsFaithfully (some "out") oneInput _).2 reads⟩

end Campaign.CommandLine
