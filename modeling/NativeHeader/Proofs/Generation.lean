import NativeHeader.Proofs.Interface
import NativeHeader.Proofs.Loading

/-!
# From a document to its header

Loading and generating in one: what the header of a document says, and which documents have one.
Both are told of the document alone.  The interface of the header is the one that the document's
outline declares (`header_of_document`), and there is a header exactly if the whole document is well
shaped and each module that stays is declarable (`exists_header_iff`).  A module whose place was
taken by a later one must be well shaped, but its names and types count for nothing.
-/

namespace NativeHeader

/-! ## What a header says -/

/-- The header of a document has the text of the interface that the document's outline declares, and
no other file comes with it. -/
theorem header_of_document {raw : Document} {schema : Schema}
    (loaded : Schema.load raw = .ok schema) (library moduleSpec : String)
    (files : OrderedMap String) :
    schema.outline = raw.outline ∧
      ((schema.generate library moduleSpec).result = .ok files ↔
        ∃ interface : Interface, raw.outline.Declares interface ∧
          files.entries = [("NativeModules.h", interface.text)]) := by
  have houtline := outline_of_load loaded
  refine ⟨houtline, ?_⟩
  rw [← houtline]
  exact generate_eq_ok_iff

/-- A module with an alias, and names that look like the slots of the templates. -/
def slotNamedModule : Document :=
  .object
    [("aliases", .object [("Shape", .object [("type", .string "ObjectTypeAnnotation")])]),
      ("properties", .array [.object
        [("name", .string "::_ARGS_::"),
          ("typeAnnotation", .object
            [("returnTypeAnnotation", .object [("type", .string "VoidTypeAnnotation")]),
              ("params", .array
                [.object
                  [("name", .decimal (.ofDecimal false ⟨1, 5⟩)),
                    ("typeAnnotation", .object
                      [("type", .string "TypeAliasTypeAnnotation"), ("name", .string "Shape")])],
                .object
                  [("name", .string ""),
                    ("typeAnnotation", .object
                      [("type", .string "NumberTypeAnnotation")])]])])]])]

def slotNamedDocument : Document :=
  .object [("modules", .object
    [("Sample.js", .object [("nativeModules", .object [("::_MODULES_::", slotNamedModule)])])])]

/-- What the header of that document says. -/
def slotNamedInterface : Interface :=
  [⟨"::_MODULES_::", [⟨"::_ARGS_::", .void, [⟨"100000.0", .jsiObject⟩, ⟨"", .double⟩]⟩]⟩]

theorem header_of_slotNamedDocument :
    ∃ schema files, Schema.load slotNamedDocument = .ok schema ∧
      (schema.generate "library" "specification").result = .ok files ∧
      files.entries = [("NativeModules.h", slotNamedInterface.text)] := by
  have hdeclares : slotNamedDocument.outline.Declares slotNamedInterface := by
    have houtline : slotNamedDocument.outline =
        [⟨"::_MODULES_::", slotNamedModule.aliasHeads,
          [⟨.string "::_ARGS_::", ⟨.string "VoidTypeAnnotation", .null⟩,
            [⟨.decimal (.ofDecimal false ⟨1, 5⟩),
                ⟨.string "TypeAliasTypeAnnotation", .string "Shape"⟩⟩,
              ⟨.string "", ⟨.string "NumberTypeAnnotation", .null⟩⟩]⟩]⟩] := rfl
    have hshape : (⟨.string "TypeAliasTypeAnnotation", .string "Shape"⟩ : Head).Denotes
        slotNamedModule.aliasHeads.get? .jsiObject :=
      ⟨⟨.string "ObjectTypeAnnotation", .null⟩, .entry rfl rfl rfl, .byTag rfl rfl⟩
    rw [houtline]
    have hname : "100000.0" = (Document.decimal (.ofDecimal false ⟨1, 5⟩)).text := by
      decide +kernel
    exact .cons ⟨rfl, .cons ⟨rfl, Head.denotes_of_tag rfl rfl,
      .cons ⟨hname, hshape⟩ (.cons ⟨rfl, Head.denotes_of_tag rfl rfl⟩ .nil)⟩ .nil⟩ .nil
  have hloads : (Schema.load slotNamedDocument).isOk = true := by decide +kernel
  obtain ⟨schema, hload⟩ := succeeds_iff_isOk.2 hloads
  have hheader := header_of_document hload "library" "specification"
    (OrderedMap.empty.put "NativeModules.h" slotNamedInterface.text)
  exact ⟨schema, _, hload, hheader.2.2 ⟨_, hdeclares, rfl⟩, rfl⟩

/-! ## Which documents have a header -/

/-- A document has a header exactly if all of it is well shaped and each method of a module that
stays is declarable with the aliases of its module. -/
theorem exists_header_iff (raw : Document) (library moduleSpec : String) :
    (∃ schema files, Schema.load raw = .ok schema ∧
        (schema.generate library moduleSpec).result = .ok files) ↔
      raw.IsSchema ∧
        ∀ module ∈ raw.outline, ∀ method ∈ module.methods, method.IsDeclarable module.aliases := by
  rw [← succeeds_loadSchema_iff, ← Outline.exists_declares_iff]
  constructor
  · rintro ⟨schema, files, hload, hfiles⟩
    obtain ⟨interface, hdeclares, -⟩ := generate_eq_ok_iff.1 hfiles
    rw [outline_of_load hload] at hdeclares
    exact ⟨⟨schema, hload⟩, interface, hdeclares⟩
  · rintro ⟨⟨schema, hload⟩, interface, hdeclares⟩
    rw [← outline_of_load hload] at hdeclares
    exact ⟨schema, OrderedMap.empty.put "NativeModules.h" interface.text, hload,
      generate_eq_ok_iff.2 ⟨interface, hdeclares, rfl⟩⟩

end NativeHeader
