import Manuscript.Delivery
import Manuscript.Proofs.Base64
import Manuscript.Proofs.Json.Any

/-!
# Payloads carry what is delivered

The envelope of a delivery is written on one line.  Reading it gives its four members in their
order, the file name as it is and the content in base 64, so a payload belongs to one delivery only.
-/

namespace Manuscript.Delivery

open Json (Reader ReadsAs)

theorem escapeChar_of_mem_encode (content : Bytes) :
    ∀ c ∈ Base64.encode content, Json.escapeChar c = [c] :=
  Base64.forall_mem_encode (by decide) (by decide) content

theorem printString_base64 (delivery : Delivery) :
    Json.printString delivery.base64 =
      '\x22' :: (Base64.encode delivery.content ++ ['\x22']) := by
  have hplain : (Base64.encode delivery.content).flatMap Json.escapeChar =
      Base64.encode delivery.content := by
    rw [List.flatMap_congr (escapeChar_of_mem_encode delivery.content), List.flatMap_singleton']
  rw [Json.printString, base64, String.toList_ofList, hplain, List.cons_append]

theorem toList_payload (delivery : Delivery) :
    delivery.payload.toList =
      "\x7b\x22success\x22:true,\x22fileName\x22:".toList ++
        (Json.printString delivery.fileName ++
        (",\x22mimeType\x22:".toList ++ (Json.printString Wordprocessing.mediaType ++
        (",\x22data\x22:\x22".toList ++
          (Base64.encode delivery.content ++ ['\x22', '\x7d']))))) := by
  have hsuccess : Json.printString "success" = "\x22success\x22".toList := by decide
  have hname : Json.printString "fileName" = "\x22fileName\x22".toList := by decide
  have htype : Json.printString "mimeType" = "\x22mimeType\x22".toList := by decide
  have hdata : Json.printString "data" = "\x22data\x22".toList := by decide
  rw [payload, Json.render, String.toList_ofList, envelope]
  simp only [Json.print, Json.printMembers, Json.Layout.newline, Json.Layout.colon,
    printString_base64, hsuccess, hname, htype, hdata]
  simp

theorem readsAs_envelope (delivery : Delivery) :
    ReadsAs 1 Reader.any delivery.envelope delivery.envelope := by
  apply ReadsAs.any_object
  simp only [List.forall_mem_cons]
  exact ⟨.any_bool true, .any_string _, .any_string _, .any_string _, by simp⟩

theorem read_payload (delivery : Delivery) :
    Json.read Reader.any delivery.payload = .ok delivery.envelope :=
  Json.read_render delivery.readsAs_envelope (by decide) .compact

theorem payload_inj {delivery other : Delivery} :
    delivery.payload = other.payload ↔
      delivery.fileName = other.fileName ∧ delivery.content = other.content := by
  constructor
  · intro h
    have hread := delivery.read_payload
    rw [h, other.read_payload] at hread
    simp only [envelope, base64, Except.ok.injEq, Json.object.injEq, List.cons.injEq,
      Prod.mk.injEq, Json.string.injEq, String.ofList_inj, true_and, and_true] at hread
    exact ⟨hread.1.symm, Base64.encode_injective hread.2.symm⟩
  · rintro ⟨hname, hcontent⟩
    rw [payload, payload, envelope, envelope, base64, base64, hname, hcontent]

/-- A payload is one line, without space between its parts.  It reads as an object of four members
in this order: success, the file name as it is, the media type, and the one text in base 64 that
stands for the content, four characters for every three bytes.  Deliveries with the same payload
have the same name and content. -/
theorem payload_carries :
    (∀ delivery : Delivery,
      delivery.payload.toList =
        "\x7b\x22success\x22:true,\x22fileName\x22:".toList ++
          (Json.printString delivery.fileName ++
          (",\x22mimeType\x22:".toList ++ (Json.printString Wordprocessing.mediaType ++
          (",\x22data\x22:\x22".toList ++
            (Base64.encode delivery.content ++ ['\x22', '\x7d']))))) ∧
      (∀ c ∈ delivery.payload.toList, 0x20 ≤ c.toNat) ∧
      ∃ data, Json.read Reader.any delivery.payload = .ok (.object [
          ("success", .bool true),
          ("fileName", .string delivery.fileName),
          ("mimeType", .string Wordprocessing.mediaType),
          ("data", .string data)]) ∧
        data.toList.length = (delivery.content.length + 2) / 3 * 4 ∧
        ∀ text : String, Base64.decode? text.toList = some delivery.content ↔ text = data) ∧
    ∀ delivery other : Delivery, delivery.payload = other.payload ↔
      delivery.fileName = other.fileName ∧ delivery.content = other.content := by
  refine ⟨fun delivery =>
    ⟨delivery.toList_payload, ?_, delivery.base64, delivery.read_payload, ?_, ?_⟩,
    fun _ _ => payload_inj⟩
  · intro c hc
    rw [payload, Json.render, String.toList_ofList] at hc
    have hplain := Json.isPlain_print .compact 0 delivery.envelope c hc
    by_contra hcontrol
    exact absurd (hplain (by omega)).1 (by decide)
  · rw [base64, String.toList_ofList, Base64.length_encode]
  · intro text
    rw [Base64.decode?_eq_some_iff, base64, ← String.toList_inj, String.toList_ofList]

end Manuscript.Delivery
