import Polyglot.Catalog.Writing
import Polyglot.Registry

/-!
The shipped catalogs: a phrasebook in English, Russian and Chinese, from which the three documents
are written. English texts are their own translation.
-/

namespace Polyglot

/-- A text in the three shipped languages. -/
structure Phrase where
  english : String
  russian : String
  chinese : String
  deriving DecidableEq, Repr

namespace Shipped

def phrasebook : List (String × List Phrase) := [
  ("MainWindow", [
    ⟨"VEIL VPN", "VEIL VPN", "VEIL VPN"⟩,
    ⟨"Connect", "Подключиться", "连接"⟩,
    ⟨"Disconnect", "Отключиться", "断开连接"⟩,
    ⟨"Settings", "Настройки", "设置"⟩,
    ⟨"Exit", "Выход", "退出"⟩,
    ⟨"Disconnected", "Отключено", "已断开"⟩,
    ⟨"Connecting...", "Подключение...", "正在连接..."⟩,
    ⟨"Connected", "Подключено", "已连接"⟩,
    ⟨"Connection Error", "Ошибка подключения", "连接错误"⟩,
    ⟨"Server", "Сервер", "服务器"⟩,
    ⟨"Status", "Статус", "状态"⟩,
    ⟨"Upload", "Отправлено", "上传"⟩,
    ⟨"Download", "Получено", "下载"⟩,
    ⟨"Connection Time", "Время подключения", "连接时间"⟩,
    ⟨"IP Address", "IP-адрес", "IP地址"⟩]),
  ("SettingsDialog", [
    ⟨"Settings", "Настройки", "设置"⟩,
    ⟨"General", "Общие", "常规"⟩,
    ⟨"Connection", "Подключение", "连接"⟩,
    ⟨"Advanced", "Дополнительно", "高级"⟩,
    ⟨"Language", "Язык", "语言"⟩,
    ⟨"Start with Windows", "Запускать с Windows", "开机启动"⟩,
    ⟨"Start minimized", "Запускать свёрнутым", "最小化启动"⟩,
    ⟨"Auto-connect on startup", "Автоподключение при запуске", "启动时自动连接"⟩,
    ⟨"Check for updates automatically", "Автоматически проверять обновления", "自动检查更新"⟩,
    ⟨"Server Address", "Адрес сервера", "服务器地址"⟩,
    ⟨"Port", "Порт", "端口"⟩,
    ⟨"Protocol", "Протокол", "协议"⟩,
    ⟨"Split Tunneling", "Раздельное туннелирование", "分流隧道"⟩,
    ⟨"DNS Settings", "Настройки DNS", "DNS设置"⟩,
    ⟨"Use custom DNS", "Использовать свои DNS", "使用自定义DNS"⟩,
    ⟨"Primary DNS", "Основной DNS", "主DNS"⟩,
    ⟨"Secondary DNS", "Дополнительный DNS", "备用DNS"⟩,
    ⟨"OK", "ОК", "确定"⟩,
    ⟨"Cancel", "Отмена", "取消"⟩,
    ⟨"Apply", "Применить", "应用"⟩]),
  ("SystemTray", [
    ⟨"Show VEIL VPN", "Показать VEIL VPN", "显示 VEIL VPN"⟩,
    ⟨"Connect", "Подключиться", "连接"⟩,
    ⟨"Disconnect", "Отключиться", "断开连接"⟩,
    ⟨"Settings", "Настройки", "设置"⟩,
    ⟨"Exit", "Выход", "退出"⟩,
    ⟨"VEIL VPN - Disconnected", "VEIL VPN - Отключено", "VEIL VPN - 已断开"⟩,
    ⟨"VEIL VPN - Connected", "VEIL VPN - Подключено", "VEIL VPN - 已连接"⟩,
    ⟨"VEIL VPN - Connecting", "VEIL VPN - Подключение", "VEIL VPN - 正在连接"⟩]),
  ("UpdateDialog", [
    ⟨"Update Available", "Доступно обновление", "有可用更新"⟩,
    ⟨"A new version of VEIL VPN is available!", "Доступна новая версия VEIL VPN!",
      "VEIL VPN有新版本可用！"⟩,
    ⟨"Current version: %1", "Текущая версия: %1", "当前版本：%1"⟩,
    ⟨"New version: %1", "Новая версия: %1", "新版本：%1"⟩,
    ⟨"Release Notes:", "Примечания к выпуску:", "发行说明："⟩,
    ⟨"Download Update", "Загрузить обновление", "下载更新"⟩,
    ⟨"Remind Me Later", "Напомнить позже", "稍后提醒"⟩,
    ⟨"Skip This Version", "Пропустить эту версию", "跳过此版本"⟩]),
  ("AboutDialog", [
    ⟨"About VEIL VPN", "О программе VEIL VPN", "关于 VEIL VPN"⟩,
    ⟨"Version %1", "Версия %1", "版本 %1"⟩,
    ⟨"A secure, modern VPN client.", "Безопасный, современный VPN-клиент.", "安全、现代的VPN客户端。"⟩,
    ⟨"License: MIT", "Лицензия: MIT", "许可证：MIT"⟩])]

def sections (language : Phrase → String) : List Section :=
  phrasebook.map fun (name, phrases) =>
    ⟨name, phrases.map fun phrase => (phrase.english, language phrase)⟩

def document (code : String) (language : Phrase → String) : String :=
  Catalog.write code (sections language) ++ "\n"

def documents : Table String :=
  [("en_US", document "en_US" Phrase.english), ("ru_RU", document "ru_RU" Phrase.russian),
    ("zh_CN", document "zh_CN" Phrase.chinese)]

def path (directory code : String) : String :=
  joinPath directory (Registry.fileName .standard (languageOf code))

def disk (directory : String) : Disk :=
  (directory, .directory) ::
    documents.map fun (code, text) => (path directory code, .file text.toUTF8)

end Shipped
end Polyglot
