import Dialogue.Json.Source
/-!
# What can go wrong

Errors of a script (`ScriptError`), of a run (`RunError`), and either of the two (`ChatError`).
Each has a name for its kind and a message; a message of the combined error says first which
side it comes from.
-/

namespace Dialogue

/-- A mistake in a script. -/
inductive ScriptError where
  | decode (cause : DecodeError)
  | indexOutOfRange (index count : Nat)
  | missingDefaultThread
  | duplicateTopic (topic : String)
  | threadNotFound (topic : String)
  | invalidPattern (pattern reason : String)
  deriving DecidableEq, Repr

/-- A failure while a script runs. -/
inductive RunError where
  | commandNotFound (name : String)
  | commandFailed (name reason : String)
  | inputAlreadyPending
  | interrupted
  deriving DecidableEq, Repr

/-- An error of either side. -/
inductive ChatError where
  | script (e : ScriptError)
  | run (e : RunError)
  deriving DecidableEq, Repr

namespace ScriptError

/-- The name of the kind of error. -/
def kind : ScriptError → String
  | .decode _ => "Decode"
  | .indexOutOfRange _ _ => "IndexOutOfRange"
  | .missingDefaultThread => "MissingDefaultThread"
  | .duplicateTopic _ => "DuplicateTopic"
  | .threadNotFound _ => "ThreadNotFound"
  | .invalidPattern _ _ => "InvalidPattern"

/-- The message of an error. -/
def message : ScriptError → String
  | .decode e => "脚本文档解码失败: " ++ e.message
  | .indexOutOfRange index count =>
    "脚本索引 " ++ toString index ++ " 越界，共有 " ++ toString count ++ " 个文档"
  | .missingDefaultThread => "缺少入口线程 'default'"
  | .duplicateTopic topic => "线程 '" ++ topic ++ "' 重复定义"
  | .threadNotFound topic => "线程 '" ++ topic ++ "' 未找到"
  | .invalidPattern pattern reason => "无效的正则表达式 '" ++ pattern ++ "': " ++ reason

end ScriptError

namespace RunError

/-- The name of the kind of error. -/
def kind : RunError → String
  | .commandNotFound _ => "CommandNotFound"
  | .commandFailed _ _ => "CommandFailed"
  | .inputAlreadyPending => "InputAlreadyPending"
  | .interrupted => "Interrupted"

/-- The message of an error. -/
def message : RunError → String
  | .commandNotFound name => "命令 '" ++ name ++ "' 未注册"
  | .commandFailed name reason => "命令 '" ++ name ++ "' 执行失败: " ++ reason
  | .inputAlreadyPending => "已有等待中的输入请求"
  | .interrupted => "等待中的请求已被中断"

end RunError

namespace ChatError

/-- The name of the kind of error. -/
def kind : ChatError → String
  | .script e => e.kind
  | .run e => e.kind

/-- The message of an error. -/
def message : ChatError → String
  | .script e => "脚本错误: " ++ e.message
  | .run e => "运行时错误: " ++ e.message

/-- The messages of an error and of what caused it, the outermost first. -/
def chain : ChatError → List String
  | .script e => [message (.script e), e.message]
  | .run (.commandFailed name reason) =>
    [message (.run (.commandFailed name reason)), RunError.message (.commandFailed name reason),
      reason]
  | .run e => [message (.run e), e.message]

end ChatError

end Dialogue
