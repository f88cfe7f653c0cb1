import Colloquy.Api.Schema

/-!
# The document of the service

The description of the service that it serves itself: what it is, and what the JSON values look
like that it takes and delivers.
-/

set_option autoImplicit false

namespace Colloquy.Api

open Json (Value)

/-- A text that must be there. -/
def text (name : String) (description : Option String) : Property :=
  ⟨name, description, .kind .string false none, true⟩

/-- A text that may be missing. -/
def optionalText (name description : String) : Property :=
  ⟨name, description, .kind .string true none, false⟩

/-- A truth value that must be there. -/
def flag (name : String) (description : Option String) : Property :=
  ⟨name, description, .kind .boolean false none, true⟩

/-- Texts by name that must be there. -/
def texts (name : String) : Property :=
  ⟨name, none, .dictionary (.kind .string false none), true⟩

/-- The example of an attachment that is a log. -/
def logExample : Value :=
  .object
    [ ("attachment_type", .text "log"), ("content", .text "this is attachment")
    , ("content_type", .text "text/plain") ]

/-- The example of an attachment that is a configuration. -/
def configurationExample : Value :=
  .object
    [ ("attachment_type", .text "configuration"), ("content", .text "foo: bar")
    , ("content_type", .text "application/yaml") ]

/-- Attachments of queries. -/
def attachment : Definition where
  name := "Attachment"
  description := "查询附件\n\n随查询一起从 UI 发送的附加内容，例如日志或配置片段。"
  properties :=
    [ text "attachment_type" (some "附件类型，如 \"log\"、\"configuration\"")
    , text "content_type" (some "MIME 内容类型")
    , text "content" (some "附件内容") ]
  examples := .some [logExample, configurationExample]

/-- Queries. -/
def queryRequest : Definition where
  name := "QueryRequest"
  description := "查询请求"
  properties :=
    [ text "query" (some "用户问题")
    , optionalText "conversation_id" "会话 ID，缺省时由服务端生成"
    , optionalText "provider" "LLM 提供方，必须与 model 同时出现"
    , optionalText "model" "LLM 模型，必须与 provider 同时出现"
    , ⟨"attachments", some "附件列表", .list true (.reference "Attachment"), false⟩ ]
  examples := .one <| .object
    [ ("attachments", .list [logExample, configurationExample])
    , ("conversation_id", .text "123e4567-e89b-12d3-a456-426614174000")
    , ("model", .text "gpt-3.5-turbo"), ("provider", .text "openai")
    , ("query", .text "write a deployment yaml for the mongodb image") ]

/-- References of answers. -/
def referencedDocument : Definition where
  name := "ReferencedDocument"
  description := "引用文档"
  properties :=
    [ text "docs_url" (some "文档页面 URL"), text "title" (some "文档页面标题") ]
  examples := .none

/-- Answers to queries. -/
def queryResponse : Definition where
  name := "QueryResponse"
  description := "查询响应"
  properties :=
    [ text "conversation_id" (some "会话 ID")
    , text "response" (some "模型回答")
    , ⟨"referenced_documents", some "引用文档，按引用顺序排列，不去重",
        .list false (.reference "ReferencedDocument"), true⟩
    , flag "truncated" (some "会话历史是否因上下文窗口而被截断") ]
  examples := .one <| .object
    [ ("conversation_id", .text "123e4567-e89b-12d3-a456-426614174000")
    , ("referenced_documents", .list
        [ .object
          [ ("docs_url", .text
              ("https://docs.openshift.com/container-platform/4.15/operators/understanding/" ++
                "olm/olm-understanding-olm.html"))
          , ("title", .text "Operator Lifecycle Manager concepts and resources") ] ])
    , ("response", .text "Operator Lifecycle Manager (OLM) helps users install...")
    , ("truncated", .bool false) ]

/-- Feedback. -/
def feedbackRequest : Definition where
  name := "FeedbackRequest"
  description := "反馈请求"
  properties :=
    [ text "conversation_id" (some "会话 ID")
    , text "user_question" (some "用户问题")
    , text "llm_response" (some "模型回答")
    , ⟨"sentiment", some "满意度，1 或 -1", .kind .integer true (some "int64"), false⟩
    , optionalText "user_feedback" "文字反馈" ]
  examples := .one <| .object
    [ ("conversation_id", .text "12345678-abcd-0000-0123-456789abcdef")
    , ("llm_response", .text "bar"), ("sentiment", .number (.integer 1))
    , ("user_feedback", .text "Great service!"), ("user_question", .text "foo") ]

/-- Receipts of feedback. -/
def feedbackResponse : Definition where
  name := "FeedbackResponse"
  description := "反馈响应"
  properties := [text "response" none]
  examples := .one <| .object [("response", .text "feedback received")]

/-- The state of a feature. -/
def statusResponse : Definition where
  name := "StatusResponse"
  description := "功能状态响应"
  properties :=
    [ text "functionality" (some "功能名称")
    , ⟨"status", some "状态键值，值为字符串或布尔", .kind .object false none, true⟩ ]
  examples := .one <| .object
    [("functionality", .text "feedback"), ("status", .object [("enabled", .bool true)])]

/-- Whether the service can take requests. -/
def healthResponse : Definition where
  name := "HealthResponse"
  description := "健康检查响应"
  properties := [texts "status"]
  examples := .one <| .object [("status", .object [("status", .text "healthy")])]

/-- Whether the service runs. -/
def livenessResponse : Definition where
  name := "LivenessResponse"
  description := "存活检查响应"
  properties := [flag "alive" none]
  examples := .one <| .object [("alive", .bool true)]

/-- Who a caller is. -/
def authorizationResponse : Definition where
  name := "AuthorizationResponse"
  description := "授权查询响应"
  properties :=
    [text "user_id" (some "当前用户 ID"), text "username" (some "当前用户名")]
  examples := .one <| .object
    [("user_id", .text "123e4567-e89b-12d3-a456-426614174000"), ("username", .text "user1")]

/-- The example of a failure that has a cause. -/
def failureExample (response cause : String) : Value :=
  .object [("detail", .object [("cause", .text cause), ("response", .text response)])]

/-- Failures. -/
def errorResponse : Definition where
  name := "ErrorResponse"
  description := "错误响应"
  properties := [texts "detail"]
  examples := .some
    [ failureExample "Error while validation question"
        "Failed to handle request to https://bam-api.res.ibm.com/v2/text"
    , failureExample "Error retrieving conversation history"
        "Invalid conversation ID 1237-e89b-12d3-a456-426614174000" ]

/-- Queries that are too long for the language model. -/
def promptTooLongResponse : Definition where
  name := "PromptTooLongResponse"
  description := "提示词过长响应"
  properties := [texts "detail"]
  examples := .one <|
    failureExample "Prompt is too long"
      "Prompt length exceeds LLM context window limit (8000 tokens)"

/-- Callers who are not known. -/
def unauthorizedResponse : Definition where
  name := "UnauthorizedResponse"
  description := "凭据缺失或无效"
  properties := [text "detail" none]
  examples := .one <| .object [("detail", .text "Unauthorized: No auth header found")]

/-- Callers who are not allowed what was asked for. -/
def forbiddenResponse : Definition where
  name := "ForbiddenResponse"
  description := "无权访问资源"
  properties := [text "detail" none]
  examples := .one <| .object [("detail", .text "Unable to review token")]

/-- All definitions. -/
def definitions : List Definition :=
  [ attachment, queryRequest, referencedDocument, queryResponse, feedbackRequest, feedbackResponse
  , statusResponse, healthResponse, livenessResponse, authorizationResponse, errorResponse
  , promptTooLongResponse, unauthorizedResponse, forbiddenResponse ]

/-- What the service is. -/
def info : Value :=
  .object
    [ ("title", .text "Parley service - OpenAPI")
    , ("description", .text "Conversational query service: questions, feedback and probes")
    , ("contact", .object [("name", .text "Parley Team")])
    , ("license", .object [("name", .text "")])
    , ("version", .text "0.1.0") ]

/-- The document of the service: the definitions stand in the order of their names. -/
def document : Value :=
  .object
    [ ("openapi", .text "3.1.0")
    , ("info", info)
    , ("paths", .object [])
    , ("components", .object
        [("schemas", .object (lastByName (definitions.map fun d => (d.name, d.toJson))))]) ]

end Colloquy.Api
