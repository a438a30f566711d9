import HomelabApps.KnowledgeBase.Markdown.Chunker
import HomelabApps.KnowledgeBase.Store.EmbeddingRepository

namespace HomelabApps.KnowledgeBase

open HomelabApps.Library.Utf16
open Markdown Store

def MISSING_TITLE : JsString := utf16 "none"

def TEMPLATE_TITLE : JsString := utf16 "\x7btitle\x7d"

def TEMPLATE_TEXT : JsString := utf16 "\x7btext\x7d"

/-- One pass over the template; `skip` units of a placeholder already replaced are still to come. -/
def expand (title text : JsString) (skip : Nat) : JsString → JsString
  | [] => []
  | u :: s =>
    match skip with
    | k + 1 => expand title text k s
    | 0 =>
      if TEMPLATE_TITLE.isPrefixOf (u :: s) then title ++ expand title text (TEMPLATE_TITLE.length - 1) s
      else if TEMPLATE_TEXT.isPrefixOf (u :: s) then text ++ expand title text (TEMPLATE_TEXT.length - 1) s
      else u :: expand title text 0 s

def titleText (title : Option JsString) : JsString :=
  match title with
  | some t => if isNotEmpty t then t else MISSING_TITLE
  | none => MISSING_TITLE

def documentInput (template : JsString) (title : Option JsString) (heading body : JsString) : JsString :=
  expand (titleText title) (documentText heading body) 0 template

def embedDocuments {Vector : Type u} (embedder : String → JsString → Vector) (template : String → JsString)
    (model : String) (batch : List PendingChunk) : List (Nat × Vector) :=
  batch.map fun c => (c.id, embedder model (documentInput (template model) c.title c.heading c.body))

end HomelabApps.KnowledgeBase
