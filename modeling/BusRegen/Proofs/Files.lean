import BusRegen.Files
/-!
# Texts in files

The bytes of a text are read as that text and no other (`Bytes.fromUTF8?_eq_some_iff`), so a text
that is written to a file of a folder is read from it (`Files.readText?_put`).
-/
namespace BusRegen

namespace Bytes

theorem toList_loop_eq (bs : ByteArray) (i : Nat) (r : List UInt8) :
    ByteArray.toList.loop bs i r = r.reverse ++ bs.data.toList.drop i := by
  fun_induction ByteArray.toList.loop bs i r with
  | case1 i r h ih =>
    have hi : i < bs.data.toList.length := by simpa using h
    have hget : bs.get! i = bs.data.toList[i] := getElem!_pos bs.data i (by simpa using h)
    rw [ih, hget, List.drop_eq_getElem_cons hi, List.reverse_cons, List.append_assoc]
    rfl
  | case2 i r h =>
    rw [List.drop_eq_nil_of_le (by simpa using h), List.append_nil]

theorem toList_eq (bs : ByteArray) : bs.toList = bs.data.toList := toList_loop_eq bs 0 []

theorem length_toUTF8 (s : String) : s.toUTF8.toList.length = s.utf8ByteSize := by
  rw [toList_eq]
  rfl

/-- A text is read from its own bytes and no others. -/
theorem fromUTF8?_eq_some_iff (bs : List UInt8) (s : String) :
    String.fromUTF8? (ByteArray.mk bs.toArray) = some s ↔ bs = s.toUTF8.toList := by
  rw [toList_eq]
  unfold String.fromUTF8?
  constructor
  · intro h
    split at h
    · cases h
      rfl
    · cases h
  · rintro rfl
    exact dif_pos s.isValidUTF8

end Bytes

namespace Files

variable {path name : String} (h : Folder.place path = .file name) (f : Folder)
include h

theorem writeText_file (text : String) : (writeText path text : StateM Folder Bool) f =
    (true, f.put name text.toUTF8.toList) := by
  unfold writeText
  simp only [write, h]

theorem readText?_put (text : String) : (readText? path : StateM Folder (Option String))
    (f.put name text.toUTF8.toList) = (some text, f.put name text.toUTF8.toList) := by
  have hr : (read? path : StateM Folder _) (f.put name text.toUTF8.toList) =
      (some text.toUTF8.toList, f.put name text.toUTF8.toList) := by
    simp only [read?, h, Folder.content?_put, if_true]
  unfold readText?
  simp only [bind, StateT.bind, hr, Option.bind_some, (Bytes.fromUTF8?_eq_some_iff _ _).2 rfl]
  rfl

end Files
end BusRegen
