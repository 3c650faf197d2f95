import FormCompiler.Document
import FormCompiler.Proofs.Text.Segments

namespace FormCompiler

namespace FileTree

structure IsName (name : String) : Prop where
  names : name ∉ ["", ".", ".."]
  slash : '/' ∉ name.toList
  nul : '\x00' ∉ name.toList
  length : name.utf8ByteSize ≤ 255

variable {name : String}

theorem resolve_top (h : IsName name) : Path.resolve "/" name = "/" ++ name := by
  have habsolute : Path.isAbsolute name = false := by
    rw [Path.isAbsolute, String.startsWith_string_eq_false_iff]
    intro hstart
    exact h.slash (hstart.subset (List.mem_singleton.mpr rfl))
  have hends : "/".endsWith "/" = true := by decide +kernel
  simp [Path.resolve, habsolute, hends]

theorem checkPath_top (h : IsName name) : checkPath ("/" ++ name) = .ok () := by
  have hsize : "/".utf8ByteSize + name.utf8ByteSize ≤ 4095 := by
    have hslash : "/".utf8ByteSize = 1 := rfl
    have hlength := h.length
    omega
  simp [checkPath, h.nul, hsize]

theorem parts_top (h : IsName name) : Path.parts ("/" ++ name) = ["", name] := by
  have hsplit : Text.splitMarks '/' ('/' :: name.toList) = [[], name.toList] := by
    rw [Text.splitMarks, if_pos rfl, Text.splitMarks_of_not_mem h.slash]
  have hcs : ("/" ++ name).toList = '/' :: name.toList := by simp
  rw [Path.parts, hcs, hsplit, List.map_cons, List.map_cons, String.ofList_toList]
  rfl

theorem find_top (h : IsName name) (t : FileTree) :
    t.find ("/" ++ name) = (t.file? [name]).elim
      (if t.isDirectory [name] then .ok (.directory [name]) else .error .notFound)
      fun content => .ok (.file [name] content) := by
  have hstart : t.start ("/" ++ name) = .directory [] := by simp [start, Path.isAbsolute]
  have hnames := h.names
  simp only [List.mem_cons, List.not_mem_nil, or_false, not_or] at hnames
  obtain ⟨hempty, hdot, hup⟩ := hnames
  rw [find, checkPath_top h, hstart, parts_top h]
  change t.follow (.directory []) ["", name] = _
  cases hfile : t.file? [name] <;>
    simp [follow, hempty, hdot, hup, Nat.not_lt.mpr h.length, hfile]

theorem read_top (h : IsName name) {t : FileTree} {text : String}
    (hfile : t.file? [name] = some text.toUTF8) : t.read ("/" ++ name) = .ok text := by
  have htext : String.fromUTF8? text.toUTF8 = some text := by
    simp only [String.fromUTF8?, String.toUTF8_eq_toByteArray, dif_pos text.isValidUTF8]
    rfl
  simp only [read, find_top h, hfile, Option.elim_some, htext]

theorem read_top_of_absent (h : IsName name) {t : FileTree} (hfile : t.file? [name] = none)
    (hdirectory : t.isDirectory [name] = false) : t.read ("/" ++ name) = .error .notFound := by
  simp [read, find_top h, hfile, hdirectory]

theorem load_top (h : IsName name) {t : FileTree} {text : String} {j : Json}
    (hfile : t.file? [name] = some text.toUTF8) (hextension : Path.extension ("/" ++ name) = "json")
    (hparse : Json.parse text = some j) : Document.load t ("/" ++ name) = .ok j := by
  simp only [Document.load, read_top h hfile, hextension, Document.parse, hparse]

end FileTree

end FormCompiler
