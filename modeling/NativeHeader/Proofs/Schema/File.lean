import NativeHeader.Proofs.Json.Reading
import NativeHeader.Proofs.Run

/-! Loading a file.

A schema file is text in UTF-8 that writes a value, in whatever layout and with whatever
escapes. Loading it has the outcome of the value itself (`schema_of_written`): nothing in
how a document is written shows in the schema or in what is said against it. -/
namespace NativeHeader

theorem fromUTF8?_toUTF8 (text : String) : String.fromUTF8? text.toUTF8 = some text := by
  unfold String.fromUTF8?
  exact dif_pos text.isValidUTF8

theorem Schema.ofBytes_written {text : String} {v : Json} (h : Json.Writes (.element v) text.toList)
    (path : String) : Schema.ofBytes path text.toUTF8 = (Schema.ofJson v).mapError Failure.fault := by
  rw [Schema.ofBytes, fromUTF8?_toUTF8]
  simp only [Json.read_written h.unified]
  cases Schema.ofJson v <;> rfl

/-- **A file has the outcome of the value that it writes.** The file is UTF-8, the text writes
the value, and then loading the file gives the schema of the value or fails as loading the
value does. -/
theorem schema_of_written {t : FileTree} {path text : String} {v : Json}
    (hfile : t.readFile path = .ok text.toUTF8) (hwritten : Json.Writes (.element v) text.toList) :
    t.schema path = (Schema.ofJson v).mapError Failure.fault := by
  rw [FileTree.schema, hfile]
  exact Schema.ofBytes_written hwritten path

/-- A document with blanks of every kind, escapes in both cases, and a key that comes again. -/
def relaxedDocument : String :=
  "\r\n\t\x7b\"modules\" :-0,\r\n\"\\u006dodules\":\x7b \"\\ud83d\\uDE00\":null \x7d\x7d\r\n"

def FileTree.relaxed : FileTree := ⟨[(["schema.json"], .file relaxedDocument.toUTF8)]⟩

theorem relaxed_written : Json.Writes
    (.element (.obj [("modules", .obj [("😀", .null)])])) relaxedDocument.toList := by
  have hplain : Json.WritesString "modules" ('"' :: ("modules".toList ++ ['"'])) :=
    .quoted (.plain (by simp))
  have hm : Json.WritesChar 'm' ['\\', 'u', '0', '0', '6', 'd'] :=
    .unit (.digits ⟨_, .head _, rfl⟩ ⟨_, .head _, rfl⟩ ⟨_, .head _, rfl⟩ ⟨_, .head _, rfl⟩)
  have hodules : Json.WritesChars ['o', 'd', 'u', 'l', 'e', 's'] _ := .plain (by simp)
  have hescaped : Json.WritesString "modules" _ := .quoted (.cons hm hodules)
  have hface : Json.WritesChar '😀' (['\\', 'u', 'd', '8', '3', 'd'] ++ ['\\', 'u', 'D', 'E', '0', '0']) :=
    .pair (by decide)
      (.digits ⟨_, .head _, rfl⟩ ⟨_, .head _, rfl⟩ ⟨_, .head _, rfl⟩ ⟨_, .head _, rfl⟩)
      (.digits ⟨_, .tail _ (.head _), rfl⟩ ⟨_, .tail _ (.head _), rfl⟩ ⟨_, .head _, rfl⟩
        ⟨_, .head _, rfl⟩)
  have hpair : Json.WritesString "😀" _ := .quoted (.cons hface .nil)
  have hspace : Json.Blank [' '] := by decide
  have hline : Json.Blank ['\r', '\n'] := by decide
  have hindent : Json.Blank ['\r', '\n', '\t'] := by decide
  have hinner : Json.Writes (.value (.obj [("😀", .null)])) _ :=
    .object (.lastMember (.member hspace hpair Json.blank_nil (.element Json.blank_nil .nullWord hspace))) ⟨rfl, fun _ => rfl⟩
  have hsettled : Json.Settled [("modules", .int (-(0 : Nat))), ("modules", .obj [("😀", .null)])]
      [("modules", .obj [("😀", .null)])] := by
    refine ⟨by decide, fun key => ?_⟩
    show _ = List.lookup key [("modules", _), ("modules", _)]
    simp only [Json.lookup_cons_ite]
    split <;> simp [*]
  have houter : Json.Writes (.value (.obj [("modules", .obj [("😀", .null)])])) _ :=
    .object (.members
      (.member Json.blank_nil hplain hspace (.element Json.blank_nil (.int (.negated (by decide))) Json.blank_nil))
      (.lastMember (.member hline hescaped Json.blank_nil (.element Json.blank_nil hinner Json.blank_nil)))) hsettled
  refine (congrArg (Json.Writes _) ?_).mp (.element hindent houter hline)
  decide

/-- The key that comes again has its last value, an object with one component. -/
theorem schema_of_written_relaxed :
    FileTree.relaxed.schema "schema.json" = .ok ⟨[⟨"😀", none⟩]⟩ :=
  schema_of_written (v := .obj [("modules", .obj [("😀", .null)])]) (by decide) relaxed_written

end NativeHeader
